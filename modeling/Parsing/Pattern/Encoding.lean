import Parsing.Pattern.Class

/-!
# Classes as ranges of bytes

A character is stored as one to four bytes. A class is then a set of byte sequences, and it splits
into sequences of byte ranges: the characters of one sequence of ranges are all those that have each
byte in its range.
-/

namespace Parsing.Pattern

/-- The bytes between two others. -/
abbrev ByteRange := Nat × Nat

/-- The sequences of byte ranges for the numbers between two others: the first byte stands for a
number beside `offset`, and `count` bytes follow, each of which stands for six bits. -/
def byteRangesOf (offset : Nat) : (count : Nat) → (low high : Nat) → List (List ByteRange)
  | 0, low, high => [[(offset + low, offset + high)]]
  | count + 1, low, high =>
    let block := Nat.pow 64 (count + 1)
    let first := low / block
    let last := high / block
    let behind (byte low high : Nat) : List (List ByteRange) :=
      (byteRangesOf 0x80 count low high).map ((offset + byte, offset + byte) :: ·)
    if first = last then behind first (low % block) (high % block)
    else
      -- The blocks at the ends may be incomplete; those between them are alike.
      let (start, first) :=
        if low % block = 0 then ([], first)
        else (behind first (low % block) (block - 1), first + 1)
      let (stop, last) :=
        if high % block = block - 1 then ([], last)
        else (behind last 0 (high % block), last - 1)
      let middle :=
        if first ≤ last then
          [(offset + first, offset + last) :: List.replicate (count + 1) (0x80, 0xBF)]
        else []
      start ++ middle ++ stop

/-- How code points are stored: the first and the last one, what the first byte adds to the highest
bits, and how many bytes follow it. Surrogates are not stored. -/
def storedForms : List (Nat × Nat × Nat × Nat) :=
  [(0, 0x7F, 0, 0), (0x80, 0x7FF, 0xC0, 1), (0x800, 0xD7FF, 0xE0, 2), (0xE000, 0xFFFF, 0xE0, 2),
    (0x10000, 0x10FFFF, 0xF0, 3)]

/-- The sequences of byte ranges for the characters of a range, in order. -/
def encodeRange (low high : Nat) : List (List ByteRange) :=
  storedForms.flatMap fun (first, last, offset, count) =>
    if max low first ≤ min high last then
      byteRangesOf offset count (max low first) (min high last)
    else []

/-- The sequences of byte ranges for the characters of a class, in order. -/
def CharClass.encoded (a : CharClass) : List (List ByteRange) :=
  a.ranges.flatMap fun (low, high) => encodeRange low high

/-- The different first elements of nonempty sequences, each with what follows it in turn. Equal
first elements stand next to each other. -/
def heads {T : Type} [DecidableEq T] : List (List T) → List (T × List (List T))
  | [] => []
  | [] :: sequences => heads sequences
  | (x :: rest) :: sequences =>
    match heads sequences with
    | (y, rests) :: others =>
      if x = y then (x, rest :: rests) :: others else (x, [rest]) :: (y, rests) :: others
    | [] => [(x, [rest])]

end Parsing.Pattern
