import Parsing.Cursor.Basic
import Parsing.Effect
import Parsing.Outcome

/-!
# Recognizers and sequencing

A `Recognizer` is what a parser does at a cursor. Whatever runs another recognizer comes from
`branch`, which goes on after a success or a failure and ends with an error. This module has the
recognizers that consume nothing and the ways to run one after another, by `chain`: the second
recognizer runs where the first one ended, and is not run at all if the first does not succeed.
-/

namespace Parsing

universe u

/-- From a cursor to an outcome, by runs of some kind. -/
abbrev Recognizer (m : Type → Type u) (C α : Type) := C → m (Outcome C α)

namespace Recognizer

variable {m : Type → Type u} [Monad m] {C T α β γ : Type} [Cursor C T]

/-- Succeeds where it stands. -/
def succeed (value : α) : Recognizer m C α :=
  fun c => pure (.success value c)

/-- Does not succeed, for the given reason. -/
def report (reason : NoSuccess) : Recognizer m C α :=
  fun _ => pure (.noSuccess reason)

/-- Fails where it stands. -/
def fail (expected : String) : Recognizer m C α :=
  fun c => report (.failure expected (Cursor.location c)) c

/-- Ends the whole parse where it stands. -/
def abort (expected : String) : Recognizer m C α :=
  fun c => report (.error expected (Cursor.location c)) c

/-- Runs a recognizer and goes on behind its success, or after its failure from where it began. An
error is passed on. -/
def branch (p : Recognizer m C α) (next : α → Recognizer m C β)
    (otherwise : NoSuccess → Recognizer m C β) : Recognizer m C β := fun c => do
  match ← p c with
  | .success value rest => next value rest
  | .noSuccess reason =>
    if reason.isFailure then otherwise reason c else pure (.noSuccess reason)

/-- Runs a recognizer, then the one that its value asks for. -/
def chain (p : Recognizer m C α) (next : α → Recognizer m C β) : Recognizer m C β :=
  branch p next report

/-- Changes the value of a success. -/
def map (f : α → β) (p : Recognizer m C α) : Recognizer m C β :=
  chain p fun a => succeed (f a)

/-- Runs two recognizers in turn and joins their values. -/
def zip (f : α → β → γ) (p : Recognizer m C α) (q : Recognizer m C β) : Recognizer m C γ :=
  chain p fun a => map (f a) q

/-- Runs recognizers in turn and lists their values. -/
def sequence : List (Recognizer m C α) → Recognizer m C (List α)
  | [] => succeed []
  | p :: ps => zip List.cons p (sequence ps)

/-- Succeeds at the end of the input. -/
def eof : Recognizer m C Unit := fun c =>
  if Cursor.isEmpty c then succeed () c else fail "<EOF>" c

/-- Takes one token that passes a test. -/
def satisfy (expected : String) (accepts : T → Bool) : Recognizer m C T := fun c =>
  match Cursor.current c with
  | some token => if accepts token then succeed token (Cursor.next c) else fail expected c
  | none => fail expected c

end Recognizer

end Parsing
