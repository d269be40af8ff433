import Parsing.BuildError
import Parsing.Parser.Text

/-!
# Parsers from patterns

Regular expressions are written as patterns, and what a pattern is and where it is found is left to
an engine: it compiles a pattern or refuses it, and finds in a text what it has compiled. A parser
from a pattern is made of any engine (`Parser.pattern?`). The pattern is compiled with `^(?:` in
front of it and `)` behind, it is looked for in the text that is left, and the parser goes on behind
what was found.
-/

namespace Parsing

/-- A part of a text, with what is skipped in front of it and what is left behind it. -/
structure Found (text : List Char) where
  skipped : List Char
  read : List Char
  rest : List Char
  append_eq : skipped ++ read ++ rest = text

namespace Found

variable {text : List Char}

/-- What was found. -/
def value (m : Found text) : String :=
  String.ofList m.read

/-- How many bytes there are up to the end of what was found. -/
def stop (m : Found text) : Nat :=
  byteLength (m.skipped ++ m.read)

end Found

/-- Compiles patterns, or refuses them, and looks for what was compiled in texts. -/
class PatternEngine where
  compile : List Char → Option ((text : List Char) → Option (Found text))

namespace Text

/-- A pattern as a group without a number. -/
def enclosedText (pattern : List Char) : List Char :=
  "(?:".toList ++ pattern ++ [')']

/-- A pattern as a group behind the start of the text. -/
def anchoredText (pattern : List Char) : List Char :=
  '^' :: enclosedText pattern

/-- The scanner of a pattern, if it is one as a group behind the start of the text. -/
def pattern? [PatternEngine] (pattern : String) : Except BuildError (Scanner String) :=
  match PatternEngine.compile (anchoredText pattern.toList) with
  | some find => .ok ⟨s!"/{pattern}/", fun text => (find text).map fun m => (m.value, m.stop)⟩
  | none => .error .invalidPattern

end Text

namespace Parser

/-- What a pattern finds. -/
def pattern? {ρ : Type} [PatternEngine] (pattern : String) :
    Except BuildError (Parser TextPrimitive ρ String) :=
  (Text.pattern? pattern).map scan

end Parser

end Parsing
