/-!
# Ranges of code points

Sets of characters as lists of ranges, in ascending order.
-/

namespace Parsing.Text

/-- Whether a number lies in one of several ranges, given in ascending order. -/
def inRanges : List (Nat × Nat) → Nat → Bool
  | [], _ => false
  | (low, high) :: ranges, n => if n < low then false else n ≤ high || inRanges ranges n

end Parsing.Text
