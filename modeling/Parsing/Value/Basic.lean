import Parsing.Parser.Combinators
import Parsing.Recognizer.Span

/-!
# Values

The values of parsers whose rules may give anything: numbers, characters, texts, and lists, pairs
and options of values. A node is a name applied to values.
-/

namespace Parsing

/-- A value of any kind. -/
inductive Value where
  | unit
  | bool (b : Bool)
  | int (n : Int64)
  | float (x : Float)
  | char (c : Char)
  | text (s : String)
  | list (items : List Value)
  | pair (a b : Value)
  | absent
  | present (a : Value)
  | node (name : String) (arguments : List Value)
  /-- A value with the part of the input that it was read from. -/
  | spanned (a : Value) (span : Span)

namespace Value

mutual

/-- Whether two values are equal. Values of different kinds never are; numbers compare as numbers,
so that the two zeros are equal and what is no number equals nothing. -/
def same : Value → Value → Bool
  | .unit, .unit => true
  | .bool a, .bool b => a == b
  | .int a, .int b => a == b
  | .float a, .float b => a == b
  | .char a, .char b => a == b
  | .text a, .text b => a == b
  | .list a, .list b => sameAll a b
  | .pair a b, .pair c d => same a c && same b d
  | .absent, .absent => true
  | .present a, .present b => same a b
  | .node a as, .node b bs => a == b && sameAll as bs
  | .spanned a s, .spanned b t => same a b && s == t
  | _, _ => false

/-- Whether two lists of values are equal. -/
def sameAll : List Value → List Value → Bool
  | [], [] => true
  | a :: as, b :: bs => same a b && sameAll as bs
  | _, _ => false

end

instance : BEq Value := ⟨same⟩

/-- The order of two numbers, if both are numbers. -/
def compareFloats (x y : Float) : Option Ordering :=
  if x < y then some .lt else if x == y then some .eq else if y < x then some .gt else none

/-- The order of two numbers, characters or texts; values of other kinds have none. -/
def compare? : Value → Value → Option Ordering
  | .int a, .int b => some (compare a.toInt b.toInt)
  | .float a, .float b => compareFloats a b
  | .char a, .char b => some (compare a b)
  | .text a, .text b => some (compare a b)
  | _, _ => none

/-- No value ends a line. -/
instance : Newline Value := ⟨fun _ => false⟩

/-- A natural number as a value. -/
def ofNat (n : Nat) : Value :=
  .int (Int64.ofInt n)

/-- A byte as a value. -/
def ofByte (b : UInt8) : Value :=
  ofNat b.toNat

/-- An option as a value. -/
def ofOption : Option Value → Value
  | some a => .present a
  | none => .absent

end Value

end Parsing
