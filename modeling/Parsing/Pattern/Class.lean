import Parsing.Pattern.CaseFolding
import Parsing.Pattern.Digit
import Parsing.Pattern.Word
import Parsing.Text.Blank

/-!
# Classes of characters

A class is the list of its ranges of code points, in ascending order and with a gap between any two
of them, so that classes with the same members are equal.
-/

namespace Parsing.Pattern

/-- Adds a range to ranges in ascending order, joined with those that it touches. -/
def addRange : Nat × Nat → List (Nat × Nat) → List (Nat × Nat)
  | range, [] => [range]
  | (low, high), (low', high') :: ranges =>
    if high + 1 < low' then (low, high) :: (low', high') :: ranges
    else if high' + 1 < low then (low', high') :: addRange (low, high) ranges
    else addRange (min low low', max high high') ranges

/-- The gaps between ranges in ascending order, from a code point on. -/
def gapsFrom : Nat → List (Nat × Nat) → List (Nat × Nat)
  | first, [] => if first ≤ 0x10FFFF then [(first, 0x10FFFF)] else []
  | first, (low, high) :: ranges =>
    if first < low then (first, low - 1) :: gapsFrom (high + 1) ranges
    else gapsFrom (high + 1) ranges

/-- A set of characters. -/
structure CharClass where
  ranges : List (Nat × Nat)
  deriving DecidableEq

namespace CharClass

/-- Whether a code point belongs to the class. -/
def containsCode (a : CharClass) (n : Nat) : Bool :=
  Text.inRanges a.ranges n

/-- Whether a character belongs to the class. -/
def contains (a : CharClass) (c : Char) : Bool :=
  a.containsCode c.toNat

/-- The code points between two others. -/
def range (low high : Nat) : CharClass :=
  ⟨[(low, high)]⟩

/-- The one character. -/
def single (c : Char) : CharClass :=
  range c.toNat c.toNat

/-- The code points of several ranges. -/
def ofRanges (ranges : List (Nat × Nat)) : CharClass :=
  ⟨ranges.foldr addRange []⟩

/-- The code points of a list. -/
def ofCodes (codes : List Nat) : CharClass :=
  ofRanges (codes.map fun n => (n, n))

/-- No character. -/
def nothing : CharClass :=
  ⟨[]⟩

def union (a b : CharClass) : CharClass :=
  ⟨a.ranges.foldr addRange b.ranges⟩

def complement (a : CharClass) : CharClass :=
  ⟨gapsFrom 0 a.ranges⟩

def intersection (a b : CharClass) : CharClass :=
  (a.complement.union b.complement).complement

def difference (a b : CharClass) : CharClass :=
  a.intersection b.complement

def symmetricDifference (a b : CharClass) : CharClass :=
  (a.difference b).union (b.difference a)

/-- All characters. -/
def everything : CharClass :=
  nothing.complement

/-- The class with all that its members fold to, and all that folds to the same. -/
def anyCase (a : CharClass) : CharClass :=
  let targets := (foldings.filter fun (n, _) => a.containsCode n).map Prod.snd
  let b := (ofCodes targets).union a
  let sources := (foldings.filter fun (_, folded) => b.containsCode folded).map Prod.fst
  (ofCodes sources).union b

/-- The decimal digits. -/
def digit : CharClass :=
  ofRanges (zeros.map fun n => (n, n + 9))

/-- The word characters. -/
def word : CharClass :=
  ⟨wordRanges⟩

/-- The blank characters. -/
def space : CharClass :=
  ⟨Text.blankRanges⟩

/-- The characters of several ranges. -/
def ofCharRanges (ranges : List (Char × Char)) : CharClass :=
  ofRanges (ranges.map fun (low, high) => (low.toNat, high.toNat))

/-- The class of ASCII characters with a given name, if there is one. -/
def ascii? : String → Option CharClass
  | "alnum" => some (ofCharRanges [('0', '9'), ('A', 'Z'), ('a', 'z')])
  | "alpha" => some (ofCharRanges [('A', 'Z'), ('a', 'z')])
  | "ascii" => some (ofCharRanges [('\x00', '\x7f')])
  | "blank" => some (ofCharRanges [('\t', '\t'), (' ', ' ')])
  | "cntrl" => some (ofCharRanges [('\x00', '\x1f'), ('\x7f', '\x7f')])
  | "digit" => some (ofCharRanges [('0', '9')])
  | "graph" => some (ofCharRanges [('!', '~')])
  | "lower" => some (ofCharRanges [('a', 'z')])
  | "print" => some (ofCharRanges [(' ', '~')])
  | "punct" => some (ofCharRanges [('!', '/'), (':', '@'), ('[', '\x60'), ('\x7b', '~')])
  | "space" => some (ofCharRanges [('\t', '\r'), (' ', ' ')])
  | "upper" => some (ofCharRanges [('A', 'Z')])
  | "word" => some (ofCharRanges [('0', '9'), ('A', 'Z'), ('_', '_'), ('a', 'z')])
  | "xdigit" => some (ofCharRanges [('0', '9'), ('A', 'F'), ('a', 'f')])
  | _ => none

end CharClass

end Parsing.Pattern
