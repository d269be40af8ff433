import Parsing.Text.Scanner

/-!
# Whole numbers

Digits are ASCII, a number is as many of them as there are, and a number that is greater than
`largest` is not read at all.
-/

namespace Parsing.Text

/-- The value of an ASCII digit or letter as a digit. -/
def digitValue (c : Char) : Nat :=
  if c.isDigit then c.toNat - '0'.toNat
  else if c.isLower then c.toNat - 'a'.toNat + 10
  else c.toNat - 'A'.toNat + 10

/-- Whether a character is a digit in a radix up to 36. -/
def isDigitIn (radix : Nat) (c : Char) : Bool :=
  (c.isDigit || c.isLower || c.isUpper) && digitValue c < radix

/-- The number that a run of digits denotes. -/
def digitsValue (radix : Nat) (digits : List Char) : Nat :=
  digits.foldl (fun n c => n * radix + digitValue c) 0

/-- The greatest number that is read. -/
def largest : Nat := UInt64.size / 2 - 1

/-- A number, if it is not too large. -/
def bounded (n : Nat) : Option Nat :=
  if n ≤ largest then some n else none

/-- A number with one more digit, if neither the product nor the sum is too large. -/
def appendDigit (radix n : Nat) (digit : Char) : Option Nat :=
  (bounded (n * radix)).bind fun m => bounded (m + digitValue digit)

/-- The number that a run of digits denotes, if it can be put together digit by digit. -/
def boundedValue (radix : Nat) (digits : List Char) : Option Nat :=
  digits.foldlM (appendDigit radix) 0

/-- A number that is not too great is kept. -/
theorem bounded_of_le {n : Nat} (h : n ≤ largest) : bounded n = some n :=
  if_pos h

/-- A number that is too great is none. -/
theorem bounded_of_gt {n : Nat} (h : ¬ n ≤ largest) : bounded n = none :=
  if_neg h

/-- A sum that is not too large comes from a product that is not. -/
theorem appendDigit_eq (radix n : Nat) (digit : Char) :
    appendDigit radix n digit = bounded (n * radix + digitValue digit) := by
  by_cases h : n * radix ≤ largest
  · rw [appendDigit, bounded_of_le h, Option.bind_some]
  · have hsum : ¬ n * radix + digitValue digit ≤ largest := by omega
    rw [appendDigit, bounded_of_gt h, bounded_of_gt hsum, Option.bind_none]

/-- Further digits make no number smaller. -/
theorem le_foldl_digits {radix : Nat} (hradix : 0 < radix) (digits : List Char) (n : Nat) :
    n ≤ digits.foldl (fun n c => n * radix + digitValue c) n := by
  induction digits generalizing n with
  | nil => exact Nat.le_refl n
  | cons c digits ih =>
    refine Nat.le_trans ?_ (ih _)
    exact Nat.le_trans (Nat.le_mul_of_pos_right n hradix) (Nat.le_add_right _ _)

/-- Appending digit after digit gives the number that they stand for, if that is not too great. -/
theorem foldlM_appendDigit {radix : Nat} (hradix : 0 < radix) (digits : List Char) {n : Nat}
    (hn : n ≤ largest) : digits.foldlM (appendDigit radix) n =
      bounded (digits.foldl (fun n c => n * radix + digitValue c) n) := by
  induction digits generalizing n with
  | nil => exact (bounded_of_le hn).symm
  | cons c digits ih =>
    rw [List.foldlM_cons, List.foldl_cons, appendDigit_eq]
    by_cases h : n * radix + digitValue c ≤ largest
    · rw [bounded_of_le h]
      exact ih h
    · -- once it is too large, the number stays so
      have hle := le_foldl_digits hradix digits (n * radix + digitValue c)
      rw [bounded_of_gt h, bounded_of_gt fun hlast => h (Nat.le_trans hle hlast)]
      rfl

/-- No number on the way is too large unless the last one is. -/
theorem boundedValue_eq {radix : Nat} (hradix : 0 < radix) (digits : List Char) :
    boundedValue radix digits = bounded (digitsValue radix digits) :=
  foldlM_appendDigit hradix digits (Nat.zero_le largest)

/-- Reads a number in a radix. -/
def readNumber (radix : Nat) (text : List Char) : Option (Nat × Nat) :=
  let (digits, length) := Scanner.run (isDigitIn radix) text
  if digits.isEmpty then none else (boundedValue radix digits).map (·, length)

/-- Reads the digits of a hexadecimal number behind `0x` or `0X`. -/
def readPrefixedHexadecimal : List Char → Option (Nat × Nat)
  | '0' :: 'x' :: text | '0' :: 'X' :: text =>
    (readNumber 16 text).map fun (n, length) => (n, length + 2)
  | _ => none

/-- Reads a number as C writes them: hexadecimal behind `0x`, octal behind `0`, decimal otherwise. A
`0x` that no hexadecimal number follows is a `0` with something behind it. -/
def readCInteger (text : List Char) : Option (Nat × Nat) :=
  match readPrefixedHexadecimal text with
  | some read => some read
  | none =>
    match text with
    | '0' :: text =>
      let (digits, length) := Scanner.run (isDigitIn 8) text
      (boundedValue 8 digits).map (·, length + 1)
    | _ => readNumber 10 text

def decimal : Scanner Nat := ⟨"decimal", readNumber 10⟩

def octal : Scanner Nat := ⟨"octal", readNumber 8⟩

def hexadecimal : Scanner Nat := ⟨"hexadecimal", readNumber 16⟩

def cInteger : Scanner Nat := ⟨"integer", readCInteger⟩

end Parsing.Text
