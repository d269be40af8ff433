import Parsing.Parser.Combinators
import Parsing.Text.Blank
import Parsing.Text.Float
import Parsing.Text.Identifier
import Parsing.Text.Quoted

/-!
# Parsers for characters and texts

Tests on single characters work at every cursor over characters. The others read from a text.
-/

namespace Parsing.Parser

variable {π : Type → Type} {ρ α : Type}

section Characters

variable [HasTokenTests π Char]

/-- The given character. -/
def char (expected : Char) : Parser π ρ Char :=
  satisfy s!"'{expected}'" (· == expected)

/-- Any character. -/
def anyChar : Parser π ρ Char :=
  satisfy "any character" fun _ => true

/-- A character between two others, by code point. -/
def charRange (low high : Char) : Parser π ρ Char :=
  satisfy s!"'{low}'..='{high}'" fun c => low ≤ c && c ≤ high

/-- One of the characters of a string. -/
def oneOfChars (candidates : String) : Parser π ρ Char :=
  oneOf candidates.toList

end Characters

/-- What a scanner reads. -/
def scan (s : Scanner α) : Parser TextPrimitive ρ α :=
  .primitive (.scan s)

/-- The given text. -/
def literal (expected : String) : Parser TextPrimitive ρ String :=
  scan (Scanner.literal expected)

/-- White space, possibly none. -/
def spaces : Parser TextPrimitive ρ String :=
  scan Text.spaces

/-- A parser with white space around it. -/
def lexeme (p : Parser TextPrimitive ρ α) : Parser TextPrimitive ρ α :=
  skip (andThen spaces p) spaces

/-- `true` or `false`. -/
def boolean : Parser TextPrimitive ρ Bool :=
  .named "boolean" (.or (replaced true (literal "true")) (replaced false (literal "false")))

end Parsing.Parser
