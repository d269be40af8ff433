/-!
# The shortest decimal that reads back

Every finite binary64 number is the nearest one to all decimals in some interval around it. Among
those decimals, `shortest` picks one with the fewest digits, and of these the one nearest to
the number. For each number of digits only the two decimals next to the number are candidates.
-/

namespace Parsing.Decimal

/-- A positive decimal: digits, none of them a trailing zero, with the point behind the first one,
times ten to an exponent. -/
structure Scientific where
  digits : List Char
  exponent : Int

/-- The decimals that read back as a number, from `low / unit` to `high / unit`, around the number
`mid / unit`. -/
structure Interval where
  low : Nat
  mid : Nat
  high : Nat
  unit : Nat
  /-- Whether the ends belong to the interval. -/
  closed : Bool

namespace Interval

/-- The interval of `m * 2 ^ q`. The neighbour below is only half as far when `m` is the least
significand of its exponent. -/
def ofParts (m : Nat) (q : Int) (narrow : Bool) : Interval :=
  let low := 4 * m - if narrow then 1 else 2
  let up := (q - 2).toNat
  { low := low <<< up
    mid := (4 * m) <<< up
    high := (4 * m + 2) <<< up
    unit := 1 <<< (2 - q).toNat
    closed := m % 2 = 0 }

/-- The interval of the positive binary64 number with the given bits. -/
def ofBits (bits : Nat) : Interval :=
  let exponent := bits >>> 52
  let fraction := bits % (1 <<< 52)
  if exponent = 0 then ofParts fraction (-1074) false
  else ofParts (fraction + (1 <<< 52)) (exponent - 1075) (fraction = 0 && 1 < exponent)

/-- Whether `n / d` lies in the interval. -/
def contains (i : Interval) (n d : Nat) : Bool :=
  if i.closed then i.low * d ≤ n * i.unit && n * i.unit ≤ i.high * d
  else i.low * d < n * i.unit && n * i.unit < i.high * d

end Interval

/-- Multiplies by ten until a bound is reached; counts how often. -/
def tensBelow (bound : Nat) : Nat → Nat → Nat
  | 0, _ => 0
  | fuel + 1, n => if bound ≤ n then 0 else tensBelow bound fuel (n * 10) + 1

/-- The exponent of the first decimal digit of `n / d`. -/
def firstExponent (n d : Nat) : Int :=
  if d ≤ n then (Nat.toDigits 10 (n / d)).length - 1 else -(tensBelow d 400 n)

/-- `n * 10 ^ g` as a ratio. -/
def timesTen (n : Nat) (g : Int) : Nat × Nat :=
  (n * Nat.pow 10 g.toNat, Nat.pow 10 (-g).toNat)

/-- The decimal with a given number of digits that is in the interval and nearest to its middle;
of two equally near, the greater. -/
def candidate? (i : Interval) (exponent : Int) (digits : Nat) : Option Nat :=
  let g := exponent - digits + 1
  let (n, d) := timesTen i.mid (-g)
  let below := n / (d * i.unit)
  let inside (k : Nat) : Bool :=
    let (n, d) := timesTen k g
    i.contains n d
  if inside below then
    if inside (below + 1) && d * i.unit ≤ 2 * (n % (d * i.unit)) then some (below + 1)
    else some below
  else if inside (below + 1) then some (below + 1)
  else none

/-- The first candidate with at least `digits` digits, and how many it has. -/
def firstCandidate (i : Interval) (exponent : Int) : (fuel digits : Nat) → Nat × Nat
  | 0, digits => (0, digits)
  | fuel + 1, digits =>
    match candidate? i exponent digits with
    | some k => (k, digits)
    | none => firstCandidate i exponent fuel (digits + 1)

/-- The shortest decimal that reads back as the positive number with the given bits. -/
def shortest (bits : Nat) : Scientific :=
  let i := Interval.ofBits bits
  let exponent := firstExponent i.mid i.unit
  let (k, digits) := firstCandidate i exponent 17 1
  let text := Nat.toDigits 10 k
  { digits := (text.reverse.dropWhile (· == '0')).reverse
    exponent := exponent + text.length - digits }

end Parsing.Decimal
