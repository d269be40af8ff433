import Parsing.Pattern.Encoding
import Parsing.Pattern.Regex

/-!
# The size of an expression

An expression is an automaton that reads bytes, and its size is the room that the automaton takes:
32 bytes for a state, 8 for each range of bytes that a state with several ways on distinguishes, and
4 for each state that a state without reading leads to. Repetitions with counts are written out. The
automaton is needed twice, once for reading forward and once for reading backward, and an expression
that is too large in either direction is refused.
-/

namespace Parsing.Pattern

/-- The size of a state that distinguishes some ranges of bytes. -/
def branchingSize (ranges : Nat) : Nat :=
  32 + 8 * ranges

/-- The size of a state that leads to others without reading. -/
def splittingSize (states : Nat) : Nat :=
  32 + 4 * states

/-- What is left of sequences when they are read to the end in all ways, `length` steps deep. -/
def remainders : (length : Nat) → List (List ByteRange) → List (List (List ByteRange))
  | 0, _ => []
  | length + 1, sequences =>
    sequences :: (heads sequences).flatMap fun (_, rests) => remainders length rests

/-- The size of a class that has a character of several bytes. Forward, what is left to read is one
state wherever it occurs; backward, every sequence is a way of its own, and ways that end in the
same bytes share them. -/
def encodedSize (direction : Direction) (sequences : List (List ByteRange)) : Nat :=
  let left := (remainders 4 sequences).filter fun rests => rests.any (!·.isEmpty)
  match direction with
  | .forward =>
    32 + left.eraseDups.foldr (fun rests n => branchingSize (heads rests).length + n) 0
  | .backward =>
    splittingSize sequences.length + 32 +
      left.foldr (fun rests n => 32 * (heads rests).length + n) 0

/-- The size of a class. -/
def CharClass.size (direction : Direction) (a : CharClass) : Nat :=
  if a.ranges.all fun (_, high) => high < 0x80 then branchingSize a.ranges.length + 32
  else encodedSize direction a.encoded

/-- The different first bytes of words, in any order, each with what follows it. -/
def wordHeads (words : List (List UInt8)) : List (List (List UInt8)) :=
  (words.filterMap List.head?).eraseDups.map fun byte =>
    (words.filter fun word => word.head? == some byte).map List.tail

/-- The words between those that are empty, and how many of these end a row. Empty words in front of
all others are one. -/
def splitAtEmpty : List (List UInt8) → List (List (List UInt8)) × Nat
  | words =>
    let others := words.dropWhile List.isEmpty
    let rows := others.splitOn []
    let ends := min 1 (words.length - others.length) + (others.filter List.isEmpty).length
    (rows.filter (!·.isEmpty), ends)

/-- The size of a state that words start from, and of all behind it. A word that ends keeps those in
front of it apart from those behind it. -/
def wordsSize : (length : Nat) → List (List UInt8) → Nat
  | 0, _ => 0
  | length + 1, words =>
    let (rows, ends) := splitAtEmpty words
    let rowSize (row : List (List UInt8)) : Nat :=
      let rests := wordHeads row
      (if rests.length = 1 then 32 else branchingSize rests.length) +
        (rests.map fun words =>
          if words.all List.isEmpty then 0 else wordsSize length words).sum
    splittingSize (rows.length + ends) + (rows.map rowSize).sum

namespace Regex

/-- The bytes of a text. -/
def bytes? : Regex → Option (List UInt8)
  | .literal text => some (text.flatMap String.utf8EncodeChar)
  | _ => none

/-- The size of a choice between texts, which share what they begin with. -/
def textsSize (direction : Direction) (words : List (List UInt8)) : Nat :=
  let words := match direction with
    | .forward => words
    | .backward => words.map List.reverse
  32 + wordsSize ((words.map List.length).foldr max 0 + 1) words

/-- The size of an expression. The branches of a choice are those of the choices in its last branch
as well, so that these are `nested`. -/
def sizeIn (direction : Direction) : (nested : Bool) → Regex → Nat
  | _, .empty | _, .anchor _ => 32
  | _, .literal text => (text.map fun c => 32 * c.utf8Size).sum
  | _, .set a => a.size direction
  | _, .group _ r => (if direction = .forward then 64 else 0) + r.sizeIn direction false
  | _, .concat r s => r.sizeIn direction false + s.sizeIn direction false
  | nested, .alternative r s =>
    let branchesSize := 4 + r.sizeIn direction false +
      (if s matches .alternative _ _ then 0 else 4) + s.sizeIn direction true
    if nested then branchesSize
    else match (r :: s.branches).mapM bytes? with
      | some words => textsSize direction words
      | none => splittingSize 0 + 32 + branchesSize
  | _, .repeated least greatest _ r =>
    let size := r.sizeIn direction false
    match least, greatest with
    | 0, some 1 => size + splittingSize 2 + 32
    | 0, none =>
      if r.mayTakeNothing then size + 2 * splittingSize 2 + 32 else size + splittingSize 2
    | least, none => least * size + splittingSize 2
    | least, some greatest =>
      if least = greatest then least * size
      else
        (if least = 0 then 32 else least * size) + 32 +
          (greatest - least) * (size + splittingSize 2)

/-- The size of the automaton: the expression, a final state, for a match that may start anywhere
what goes to its start, and forward the places where the match starts and ends. -/
def size (r : Regex) : Direction → Nat
  | .forward =>
    r.sizeIn .forward false + 32 + 64 + (if r.startsAt .forward .startOfText then 32 else 112)
  | .backward =>
    r.sizeIn .backward false + 32 + (if r.startsAt .backward .endOfText then 32 else 112)

/-- Ten mebibytes. -/
def sizeLimit : Nat :=
  10 * 1024 * 1024

/-- Whether an expression is not too large. -/
def isAdmissible (r : Regex) : Bool :=
  r.size .forward ≤ sizeLimit && r.size .backward ≤ sizeLimit

end Regex

end Parsing.Pattern
