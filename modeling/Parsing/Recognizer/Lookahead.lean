import Parsing.Recognizer.Basic

/-!
# Conditions

Recognizers that judge what another one does: a test on its value, and the two ways to look ahead
without consuming.
-/

namespace Parsing.Recognizer

universe u

variable {m : Type → Type u} [Monad m] {C T α : Type} [Cursor C T]

/-- Fails, at the place where it began, on a value that does not pass a test. -/
def filter (accepts : α → Bool) (expected : String) (p : Recognizer m C α) :
    Recognizer m C α := fun c =>
  chain p (fun a => if accepts a then succeed a else fun _ => fail expected c) c

/-- Succeeds where it began if the recognizer succeeds. -/
def lookahead (p : Recognizer m C α) : Recognizer m C α := fun c =>
  chain p (fun a _ => succeed a c) c

/-- Succeeds where it began if the recognizer fails. -/
def not (expected : String) (p : Recognizer m C α) : Recognizer m C Unit := fun c =>
  branch p (fun _ _ => fail expected c) (fun _ => succeed ()) c

end Parsing.Recognizer
