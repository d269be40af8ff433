import Parsing.Text.Scanner

/-!
# Primitive parsers

A family of primitive parsers, `π α` for those with values in `α`, is anything that has descriptions
(`Primitive`) and can run at the cursors of some kind (`Primitive.Runs`). There are two: tests on
one token, for every kind of cursor, and for texts those and the scanners.
-/

namespace Parsing

/-- A family of parsers that are not made of others. -/
class Primitive (π : Type → Type) where
  /-- What to expect where such a parser stands. -/
  describe {α : Type} : π α → String

/-- A family of primitive parsers that can run at cursors of type `C`. -/
class Primitive.Runs (π : Type → Type) (C : Type) where
  parse {α : Type} : π α → Recognizer (Except Halt) C α

/-- A test on one token. -/
inductive TokenTest (T : Type) : Type → Type where
  | satisfy (expected : String) (accepts : T → Bool) : TokenTest T T

namespace TokenTest

variable {T α : Type}

def describe : TokenTest T α → String
  | .satisfy expected _ => expected

/-- Runs the test on the next token. -/
def parse {C : Type} [Cursor C T] : TokenTest T α → Recognizer (Except Halt) C α
  | .satisfy expected accepts => Recognizer.satisfy expected accepts

instance : Primitive (TokenTest T) := ⟨describe⟩

instance {C : Type} [Cursor C T] : Primitive.Runs (TokenTest T) C := ⟨parse⟩

end TokenTest

/-- What is primitive in a text. -/
inductive TextPrimitive (α : Type) where
  | token (test : TokenTest Char α)
  | scan (scanner : Scanner α)

namespace TextPrimitive

variable {α : Type}

def describe : TextPrimitive α → String
  | .token test => test.describe
  | .scan scanner => scanner.expected

def parse {C : Type} [TextCursor C] : TextPrimitive α → Recognizer (Except Halt) C α
  | .token test => test.parse
  | .scan scanner => Recognizer.scan scanner

instance : Primitive TextPrimitive := ⟨describe⟩

instance {C : Type} [TextCursor C] : Primitive.Runs TextPrimitive C := ⟨parse⟩

end TextPrimitive

/-- A family of primitive parsers that has the tests on one token. -/
class HasTokenTests (π : Type → Type) (T : outParam Type) where
  test {α : Type} : TokenTest T α → π α

instance {T : Type} : HasTokenTests (TokenTest T) T := ⟨id⟩

instance : HasTokenTests TextPrimitive Char := ⟨TextPrimitive.token⟩

end Parsing
