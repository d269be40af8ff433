import Parsing.Pattern.Class

/-!
# Regular expressions

What a pattern means once it has been read: texts, sets of characters, conditions on the place
between two characters, and the ways to combine them. Of the two ways to go on at a repetition or an
alternative, the one tried first is preferred.

Expressions are put together by `Regex.ofClass`, `Regex.sequence`, `Regex.choice` and
`Regex.repeatedly`, which keep them short: no sequence or choice stands directly in another one of
its kind, texts that follow each other are one text, a choice between characters is a set of
characters, and what all choices begin with stands in front of them.
-/

namespace Parsing.Pattern

/-- A condition on a place in a text. -/
inductive Anchor where
  | startOfText
  | endOfText
  | startOfLine
  | endOfLine
  | wordBoundary
  | noWordBoundary
  | startOfWord
  | endOfWord
  /-- No word character before. -/
  | afterNonWord
  /-- No word character behind. -/
  | beforeNonWord
  deriving DecidableEq

/-- Whether a condition holds between two characters, either of which may be missing. -/
def Anchor.holds (before after : Option Char) : Anchor → Bool
  | .startOfText => before.isNone
  | .endOfText => after.isNone
  | .startOfLine => before.all (· == '\n')
  | .endOfLine => after.all (· == '\n')
  | .wordBoundary => before.any isWord != after.any isWord
  | .noWordBoundary => before.any isWord == after.any isWord
  | .startOfWord => !before.any isWord && after.any isWord
  | .endOfWord => before.any isWord && !after.any isWord
  | .afterNonWord => !before.any isWord
  | .beforeNonWord => !after.any isWord

/-- How a text is read. -/
inductive Direction where
  | forward
  | backward
  deriving DecidableEq

/-- A regular expression. -/
inductive Regex where
  | empty
  /-- One character after another. -/
  | literal (text : List Char)
  | set (a : CharClass)
  | anchor (a : Anchor)
  /-- An expression whose match has a number. -/
  | group (number : Nat) (r : Regex)
  | concat (r s : Regex)
  /-- One or the other, the former if possible. -/
  | alternative (r s : Regex)
  /-- From `least` to `greatest` times, as often as possible if `greedy` and else as seldom. -/
  | repeated (least : Nat) (greatest : Option Nat) (greedy : Bool) (r : Regex)
  deriving DecidableEq

namespace Regex

/-- The number of expressions in an expression, itself among them. -/
def weight : Regex → Nat
  | .empty | .literal _ | .set _ | .anchor _ => 1
  | .group _ r | .repeated _ _ _ r => r.weight + 1
  | .concat r s | .alternative r s => r.weight + s.weight + 1

/-- Whether a match cannot take any character. -/
def takesNothing : Regex → Bool
  | .empty | .anchor _ => true
  | .literal _ | .set _ => false
  | .group _ r | .repeated _ _ _ r => r.takesNothing
  | .concat r s | .alternative r s => r.takesNothing && s.takesNothing

/-- Whether a match may take no character, as far as the conditions in it allow. -/
def mayTakeNothing : Regex → Bool
  | .empty | .anchor _ => true
  | .literal _ | .set _ => false
  | .group _ r => r.mayTakeNothing
  | .concat r s => r.mayTakeNothing && s.mayTakeNothing
  | .alternative r s => r.mayTakeNothing || s.mayTakeNothing
  | .repeated least _ _ r => least = 0 || r.mayTakeNothing

/-- Whether a match, seen in a direction, starts at a place where a condition holds. -/
def startsAt (direction : Direction) (a : Anchor) : Regex → Bool
  | .empty | .literal _ | .set _ => false
  | .anchor b => a = b
  | .group _ r => r.startsAt direction a
  | .concat r s =>
    match direction with
    | .forward => r.startsAt direction a || (r.takesNothing && s.startsAt direction a)
    | .backward => s.startsAt direction a || (s.takesNothing && r.startsAt direction a)
  | .alternative r s => r.startsAt direction a && s.startsAt direction a
  | .repeated least _ _ r => 0 < least && r.startsAt direction a

/-- A character of a class; the only character of a class is a text. -/
def ofClass (a : CharClass) : Regex :=
  match a.ranges with
  | [(low, high)] => if low = high then .literal [Char.ofNat low] else .set a
  | _ => .set a

/-- The parts of a sequence. -/
def parts : Regex → List Regex
  | .empty => []
  | .concat r s => r :: s.parts
  | r => [r]

/-- The sequence with the given parts. -/
def ofParts : List Regex → Regex
  | [] => .empty
  | [r] => r
  | r :: rs => .concat r (ofParts rs)

/-- Puts a part in front of others; two texts become one. -/
def consPart : Regex → List Regex → List Regex
  | .literal text, .literal text' :: rs => .literal (text ++ text') :: rs
  | r, rs => r :: rs

/-- One expression after another. -/
def sequence (rs : List Regex) : Regex :=
  ofParts ((rs.flatMap parts).foldr consPart [])

/-- The branches of a choice. -/
def branches : Regex → List Regex
  | .alternative r s => r :: s.branches
  | r => [r]

/-- The choice between the given branches. -/
def ofBranches : List Regex → Regex
  | [] => .set .nothing
  | [r] => r
  | r :: rs => .alternative r (ofBranches rs)

/-- The character that is the whole text. -/
def char? : Regex → Option Char
  | .literal [c] => some c
  | _ => none

/-- The class of a set. -/
def class? : Regex → Option CharClass
  | .set a => some a
  | _ => none

/-- The class of the characters that a choice is between, if it is one between characters or one
between sets. -/
def classOfBranches? (rs : List Regex) : Option CharClass :=
  match rs.mapM char? with
  | some cs => some (.ofCodes (cs.map Char.toNat))
  | none => (rs.mapM class?).map fun classes => classes.foldr .union .nothing

/-- The elements that two lists begin with. -/
def commonStart : List Regex → List Regex → List Regex
  | r :: rs, s :: ss => if r = s then r :: commonStart rs ss else []
  | _, _ => []

/-- The parts that all branches begin with, if each of them is a sequence. -/
def sharedStart : List Regex → List Regex
  | [] => []
  | r :: rs =>
    if (r :: rs).all fun s => s matches .concat _ _ then
      rs.foldl (fun start s => commonStart start s.parts) r.parts
    else []

/-- The choice between branches, with what they share in front of it. Every round takes parts away
from the branches. -/
def choiceOf : (rounds : Nat) → List Regex → Regex
  | 0, rs => ofBranches rs
  | rounds + 1, rs =>
    match rs.flatMap branches with
    | [r] => r
    | rs =>
      match classOfBranches? rs, sharedStart rs with
      | some a, _ => ofClass a
      | none, [] => ofBranches rs
      | none, start =>
        let rest := rs.map fun r => sequence (r.parts.drop start.length)
        sequence (start ++ [choiceOf rounds rest])

/-- One of several expressions, an earlier one if possible. -/
def choice (rs : List Regex) : Regex :=
  choiceOf (rs.foldr (fun r n => r.weight + n) 0) rs

/-- An expression several times. What takes no character is not tried more than once. -/
def repeatedly (least : Nat) (greatest : Option Nat) (greedy : Bool) (r : Regex) : Regex :=
  let (least, greatest) :=
    if r.takesNothing then (min least 1, some (min (greatest.getD 1) 1)) else (least, greatest)
  match least, greatest with
  | 0, some 0 => .empty
  | 1, some 1 => r
  | _, _ => .repeated least greatest greedy r

end Regex

end Parsing.Pattern
