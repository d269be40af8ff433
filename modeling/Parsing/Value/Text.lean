import Parsing.Decimal.Shortest
import Parsing.Value.Basic

/-!
# The text of a value

How values are shown in descriptions. A number with a fractional part is written with the fewest
digits that read back.
-/

namespace Parsing

namespace Decimal

/-- The least exponent of a number that is written without one. -/
def leastPositional : Int := -4

/-- The greatest exponent of a number that is written without one. -/
def greatestPositional : Int := 15

/-- The decimal without an exponent, with a digit on either side of the point at least. -/
def Scientific.positional (x : Scientific) : List Char :=
  if x.exponent < 0 then
    ['0', '.'] ++ List.replicate (-x.exponent - 1).toNat '0' ++ x.digits
  else
    let before := x.exponent.toNat + 1
    let whole := x.digits.take before
    let fraction := x.digits.drop before
    whole ++ List.replicate (before - whole.length) '0' ++ ['.'] ++
      if fraction.isEmpty then ['0'] else fraction

/-- The decimal with an exponent. -/
def Scientific.exponential (x : Scientific) : List Char :=
  let significand := match x.digits with
    | d :: e :: ds => d :: '.' :: e :: ds
    | ds => ds
  significand ++ 'e' :: (toString x.exponent).toList

/-- The text of a positive number with the given bits. -/
def positiveText (bits : Nat) : String :=
  let x := shortest bits
  String.ofList <|
    if leastPositional ≤ x.exponent && x.exponent ≤ greatestPositional then x.positional
    else x.exponential

/-- The text of a number. -/
def text (x : Float) : String :=
  if x.isNaN then "NaN"
  else
    let bits := x.toBits.toNat
    let magnitude := bits % (1 <<< 63)
    let sign := if magnitude = bits then "" else "-"
    sign ++
      if x.isInf then "inf" else if magnitude = 0 then "0.0" else positiveText magnitude

end Decimal

namespace Value

mutual

/-- The text of a value. -/
def shown : Value → String
  | .unit => "()"
  | .bool b => toString b
  | .int n => toString n.toInt
  | .float x => Decimal.text x
  | .char c => Shown.text c
  | .text s => Shown.text s
  | .list items => "[" ++ ", ".intercalate (shownAll items) ++ "]"
  | .pair a b => "(" ++ shown a ++ ", " ++ shown b ++ ")"
  | .absent => "None"
  | .present a => "Some(" ++ shown a ++ ")"
  | .node name arguments => name ++ "(" ++ ", ".intercalate (shownAll arguments) ++ ")"
  | .spanned a _ => shown a

/-- The texts of several values. -/
def shownAll : List Value → List String
  | [] => []
  | a :: as => shown a :: shownAll as

end

instance : Shown Value := ⟨shown⟩

end Value

/-- A byte is shown as its number. -/
instance : Shown UInt8 := ⟨fun b => toString b.toNat⟩

end Parsing
