import Parsing.Recognizer.Basic

/-!
# Repetition

Running one recognizer again and again. A run of repetitions ends at the first failure; an
open-ended one ends as well after a repetition that consumed nothing, since the next would be the
same. A repetition with a bound makes no such check. All of them share one loop.
-/

namespace Parsing

universe u

/-- One end of a range of counts. -/
inductive Bound where
  | included (count : Nat)
  | excluded (count : Nat)
  | unbounded

/-- Which numbers of repetitions are wanted. -/
structure CountRange where
  lower : Bound
  upper : Bound

namespace CountRange

/-- Counts are 64-bit words. -/
def largestCount : Nat := UInt64.size - 1

/-- The least number wanted. -/
def least (r : CountRange) : Nat :=
  match r.lower with
  | .included n => n
  | .excluded n => min (n + 1) largestCount
  | .unbounded => 0

/-- The greatest number wanted, if the range is bounded and begins below its bound. -/
def greatest? (r : CountRange) : Option Nat :=
  match r.upper with
  | .included n => some n
  | .excluded 0 => none
  | .excluded (n + 1) => some n
  | .unbounded => none

/-- Whether no number is wanted. -/
def isEmpty (r : CountRange) : Bool :=
  match r.upper with
  | .included n => n < r.least
  | .excluded n => n ≤ r.least
  | .unbounded => false

/-- Exactly `n`. -/
def exactly (n : Nat) : CountRange :=
  ⟨.included n, .included n⟩

end CountRange

namespace Recognizer

variable {m : Type → Type u} [Monad m] [Halting m] {C T α : Type} [Cursor C T]

/-- Appends values to those that are there, until there are as many as the limit, and gives all of
them with the failure that ended the repetition, if one did. Without a limit, the first repetition
that consumed nothing ends it, too. There are `rounds` repetitions at most. -/
def appendUpTo (limit : Option Nat) (p : Recognizer m C α) (rounds : Nat) (values : List α) :
    Recognizer m C (List α × Option NoSuccess) := fun c =>
  if limit.all (values.length < ·) then
    match rounds with
    | 0 => halt .outOfFuel
    | rounds + 1 =>
      branch p
        (fun a rest =>
          if Cursor.position rest = Cursor.position c ∧ limit.isNone then
            succeed (values ++ [a], none) rest
          else appendUpTo limit p rounds (values ++ [a]) rest)
        (fun failure => succeed (values, some failure)) c
  else succeed (values, none) c

/-- The loop that all repetitions share. It goes round as often as its limit asks for, or else
`fuel` times at most. -/
def repeatInto (fuel : Nat) (p : Recognizer m C α) (values : List α) (limit : Option Nat) :
    Recognizer m C (List α × Option NoSuccess) :=
  appendUpTo limit p (limit.elim fuel (· - values.length)) values

/-- Any number of repetitions. -/
def many (fuel : Nat) (p : Recognizer m C α) : Recognizer m C (List α) :=
  map Prod.fst (repeatInto fuel p [] none)

/-- At least one repetition; the only one, if it consumed nothing. -/
def manyOne (fuel : Nat) (p : Recognizer m C α) : Recognizer m C (List α) := fun c =>
  chain p (fun a rest =>
    if Cursor.position rest = Cursor.position c then succeed [a] rest
    else map Prod.fst (repeatInto fuel p [a] none) rest) c

/-- A number of repetitions in a range, as many as there are. -/
def repeated (fuel : Nat) (range : CountRange) (p : Recognizer m C α) :
    Recognizer m C (List α) :=
  if range.isEmpty then succeed []
  else chain (repeatInto fuel p [] (some range.least)) fun
    | (_, some failure) => report failure
    | (values, none) => map Prod.fst (repeatInto fuel p values range.greatest?)

end Recognizer

end Parsing
