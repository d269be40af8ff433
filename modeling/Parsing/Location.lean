/-!
# Places in an input

A `Location` is what a reader is told about where it stands: a line and a column, or the number of
tokens passed. It moves by one token at a time (`Location.advance`), and `Location.advanceBy` folds
that over a run of tokens.

Lines, columns and tokens are counted in machine words. A count may start anywhere, and behind the
greatest word it goes on at zero, which is what happens where overflow is not checked. Where it is
checked, that step stops the program, and all others are the same.
-/

namespace Parsing

/-- Tokens that may end a line. -/
class Newline (T : Type) where
  isNewline : T → Bool

export Newline (isNewline)

instance : Newline Char := ⟨(· == '\n')⟩

instance : Newline UInt8 := ⟨(· == 10)⟩

/-- A number as a count. -/
instance countOfNat : Coe Nat UInt64 := ⟨UInt64.ofNat⟩

/-- A count as a number. -/
instance natOfCount : Coe UInt64 Nat := ⟨UInt64.toNat⟩

/-- A line, counted from one, and the number of tokens before the place in that line. -/
structure LineColumn where
  line : UInt64 := 1
  column : UInt64 := 0
  deriving DecidableEq

namespace LineColumn

/-- The place after a token that stands at `place`. -/
def advance {T : Type} [Newline T] (place : LineColumn) (token : T) : LineColumn :=
  if isNewline token then ⟨place.line + 1, 0⟩ else ⟨place.line, place.column + 1⟩

/-- Places are ordered by line, and within a line by column. -/
instance : Ord LineColumn where
  compare a b := (compare a.line b.line).then (compare a.column b.column)

/-- The place as it is shown. -/
def text (place : LineColumn) : String :=
  s!"line {place.line}, column {place.column}"

end LineColumn

/-- Where in its input a reader stands. -/
inductive Location where
  /-- By line and column. -/
  | lineColumn (place : LineColumn)
  /-- By the number of tokens passed. -/
  | offset (count : UInt64)
  deriving DecidableEq

namespace Location

/-- The location after one more token. -/
def advance {T : Type} [Newline T] : Location → T → Location
  | .lineColumn place, token => .lineColumn (place.advance token)
  | .offset count, _ => .offset (count + 1)

/-- The location after a run of tokens. -/
def advanceBy {T : Type} [Newline T] (l : Location) (tokens : List T) : Location :=
  tokens.foldl advance l

/-- The location as it is shown. -/
def text : Location → String
  | .lineColumn place => place.text
  | .offset count => s!"offset {count}"

section Lemmas

variable {T : Type} [Newline T]

@[simp] theorem advanceBy_nil (l : Location) : l.advanceBy ([] : List T) = l := rfl

@[simp] theorem advanceBy_cons (l : Location) (t : T) (ts : List T) :
    l.advanceBy (t :: ts) = (l.advance t).advanceBy ts := rfl

/-- Passing two runs of tokens is passing one run after the other. -/
theorem advanceBy_append (l : Location) (ts us : List T) :
    l.advanceBy (ts ++ us) = (l.advanceBy ts).advanceBy us := by
  simp [advanceBy, List.foldl_append]

end Lemmas

end Location

end Parsing
