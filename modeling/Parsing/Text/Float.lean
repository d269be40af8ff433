import Parsing.Decimal.Binary64
import Parsing.Text.Number

/-!
# Decimal numerals

A numeral is a sign, digits, a point with digits behind it, and an exponent; only the digits must be
there, before the point or behind it. `Numeral.read` splits the longest numeral off a text:
a point without digits behind it, or an exponent without digits, is left in the text.
-/

namespace Parsing.Text

/-- The exponent of a numeral as it is written. -/
structure ExponentPart where
  /-- `e` or `E`. -/
  letter : Char
  sign : List Char
  digits : List Char

/-- A decimal numeral as it is written. -/
structure Numeral where
  sign : List Char
  whole : List Char
  /-- The digits behind the point; none if there is no point. -/
  fraction : List Char
  exponent : Option ExponentPart

/-- Splits off a sign, if there is one. -/
def splitSign : List Char → List Char × List Char
  | [] => ([], [])
  | c :: text => if c = '+' || c = '-' then ([c], text) else ([], c :: text)

/-- Splits off all leading decimal digits. -/
def splitDigits (text : List Char) : List Char × List Char :=
  (text.takeWhile Char.isDigit, text.dropWhile Char.isDigit)

/-- Splits off a point and the digits behind it, if there are any. -/
def splitFraction : List Char → List Char × List Char
  | [] => ([], [])
  | c :: text =>
    let (digits, rest) := splitDigits text
    if c = '.' && !digits.isEmpty then (digits, rest) else ([], c :: text)

/-- Splits off an exponent, if there is one with digits. -/
def splitExponent : List Char → Option ExponentPart × List Char
  | [] => (none, [])
  | c :: text =>
    let (sign, rest) := splitSign text
    let (digits, rest) := splitDigits rest
    if (c = 'e' || c = 'E') && !digits.isEmpty then (some ⟨c, sign, digits⟩, rest)
    else (none, c :: text)

namespace ExponentPart

/-- The exponent as it is written. -/
def text (e : ExponentPart) : List Char :=
  e.letter :: (e.sign ++ e.digits)

/-- The exponent as a number. -/
def value (e : ExponentPart) : Int :=
  if e.sign = ['-'] then -digitsValue 10 e.digits else digitsValue 10 e.digits

end ExponentPart

namespace Numeral

/-- The numeral as it is written. -/
def text (n : Numeral) : List Char :=
  n.sign ++ n.whole ++ (if n.fraction.isEmpty then [] else '.' :: n.fraction) ++
    (n.exponent.map ExponentPart.text).getD []

/-- Splits the longest numeral off a text. -/
def read (text : List Char) : Option Numeral :=
  let (sign, text) := splitSign text
  let (whole, text) := splitDigits text
  let (fraction, text) := splitFraction text
  let (exponent, _) := splitExponent text
  if whole.isEmpty && fraction.isEmpty then none else some ⟨sign, whole, fraction, exponent⟩

/-- The binary64 number nearest to the numeral. -/
def toFloat (n : Numeral) : Float :=
  let exponent := (n.exponent.map ExponentPart.value).getD 0
  Decimal.Binary64.signed (n.sign = ['-']) <|
    Decimal.Binary64.ofDecimal (digitsValue 10 (n.whole ++ n.fraction))
      (exponent - n.fraction.length)

end Numeral

def float : Scanner Float where
  expected := "float"
  scan text := (Numeral.read text).map fun n => (n.toFloat, byteLength n.text)

end Parsing.Text
