import Parsing.Text.Ranges
import Parsing.Text.Scanner

/-!
# Blank characters

The characters with the property White_Space, and the scanner that reads a run of them.
-/

namespace Parsing.Text

/-- The characters with the property White_Space, as ranges of code points. -/
def blankRanges : List (Nat × Nat) :=
  [(0x09, 0x0D), (0x20, 0x20), (0x85, 0x85), (0xA0, 0xA0), (0x1680, 0x1680), (0x2000, 0x200A),
    (0x2028, 0x2029), (0x202F, 0x202F), (0x205F, 0x205F), (0x3000, 0x3000)]

/-- Whether a character is white space. -/
def isBlank (c : Char) : Bool :=
  inRanges blankRanges c.toNat

/-- Reads white space, possibly none. -/
def spaces : Scanner String where
  expected := "spaces"
  scan text :=
    let (read, length) := Scanner.run isBlank text
    some (String.ofList read, length)

end Parsing.Text
