import Parsing.Location

/-!
# Cursors

A cursor is an immutable place in an input: it shows the token that comes next and where it stands,
and moving gives a new cursor. `Cursor` says what every kind of input offers, `TextCursor` what
inputs made of characters offer besides. Only the first five operations have to be given: the
others have a meaning in terms of them (`stepUpTo`, `charactersIn?`), which a kind of cursor may
replace by a faster one.
-/

namespace Parsing

/-- Tells one opening of an input from every other, equal texts included. -/
structure InputId where
  number : Nat
  deriving DecidableEq

/-- Takes `n` steps, fewer if the input ends before. -/
def stepUpTo {C : Type} (isEmpty : C → Bool) (step : C → C) : Nat → C → C
  | 0, c => c
  | n + 1, c => if isEmpty c then c else stepUpTo isEmpty step n (step c)

/-- A place in an input whose tokens are of type `T`. -/
class Cursor (C : Type) (T : outParam Type) where
  /-- The token that comes next. -/
  current : C → Option T
  /-- Past the next token; at the end, the same place. -/
  next : C → C
  /-- How far from the start of the input, in the input's own units. -/
  position : C → Nat
  location : C → Location
  /-- The opening of the input that the cursor belongs to. -/
  input : C → InputId
  /-- Whether no token is left. -/
  isEmpty : C → Bool := fun c => (current c).isNone
  /-- Past the next `n` tokens, or at the end if there are fewer. -/
  skip : C → Nat → C := fun c n => stepUpTo isEmpty next n c

/-- The number of bytes that a run of characters takes in UTF-8. -/
def byteLength (cs : List Char) : Nat :=
  cs.foldr (fun c n => c.utf8Size + n) 0

/-- How many leading characters take exactly `n` bytes, if some number of them does. -/
def charactersIn? : List Char → Nat → Option Nat
  | _, 0 => some 0
  | [], _ + 1 => none
  | c :: cs, n + 1 =>
    if c.utf8Size ≤ n + 1 then (charactersIn? cs (n + 1 - c.utf8Size)).map (· + 1) else none

/-- A cursor over characters, which can show all that is left and move by bytes. -/
class TextCursor (C : Type) extends Cursor C Char where
  /-- The characters that are left. -/
  rest : C → List Char
  /-- Past the next `n` bytes, if that many are left and the last of them ends a character. -/
  advanceBytes : C → Nat → Option C := fun c n => (charactersIn? (rest c) n).map (skip c)

end Parsing
