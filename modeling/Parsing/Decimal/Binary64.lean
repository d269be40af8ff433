/-!
# Rounding to binary64

The binary64 number nearest to a ratio or to a decimal number, as its 64 bits. A tie goes to the
even significand. All of it is arithmetic on natural numbers.
-/

namespace Parsing.Decimal

/-- The whole number nearest to `n / d`; of two, the even one. -/
def roundToEven (n d : Nat) : Nat :=
  let q := n / d
  let r := 2 * (n % d)
  if r < d then q else if d < r then q + 1 else q + q % 2

/-- `n / d` scaled by `2 ^ (-q)`, as a ratio. -/
def scaled (n d : Nat) (q : Int) : Nat × Nat :=
  if 0 ≤ q then (n, d <<< q.toNat) else (n <<< (-q).toNat, d)

namespace Binary64

/-- The bits of positive infinity. -/
def infinity : Nat := 0x7FF <<< 52

/-- The sign bit. -/
def signBit : Nat := 1 <<< 63

/-- The exponent of the last bit of the significand of `n / d`: the significand has 53 bits unless
the exponent would be below the least one. -/
def lastBitExponent (n d : Nat) : Int :=
  let q := (n.log2 : Int) - d.log2 - 53
  let (a, b) := scaled n d q
  max (-1074) (if a / b < 1 <<< 53 then q else q + 1)

/-- The bits of the number nearest to `n / d`. A significand that rounds up to 54 bits carries into
the exponent by itself. -/
def ofRatio (n d : Nat) : Nat :=
  if n = 0 then 0
  else
    let q := lastBitExponent n d
    let (a, b) := scaled n d q
    min infinity (((q + 1074).toNat <<< 52) + roundToEven a b)

/-- The bits of the number nearest to `coefficient * 10 ^ exponent`. Powers of ten that decide
the result by their size alone are not computed. -/
def ofDecimal (coefficient : Nat) (exponent : Int) : Nat :=
  if coefficient = 0 then 0
  else if 400 < exponent then infinity
  else if (coefficient.log2 / 3 : Nat) + exponent < -400 then 0
  else if 0 ≤ exponent then ofRatio (coefficient * Nat.pow 10 exponent.toNat) 1
  else ofRatio coefficient (Nat.pow 10 (-exponent).toNat)

/-- The same number with a sign. -/
def signed (negative : Bool) (bits : Nat) : Float :=
  Float.ofBits (UInt64.ofNat (if negative then bits + signBit else bits))

end Binary64

end Parsing.Decimal
