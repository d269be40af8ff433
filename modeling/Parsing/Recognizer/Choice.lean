import Parsing.Recognizer.Basic

/-!
# Choice

Recognizers that try something else at the same cursor after a failure, by `recover`.
-/

namespace Parsing.Recognizer

universe u

variable {m : Type → Type u} [Monad m] {C T α : Type} [Cursor C T]

/-- After a failure, goes on from the same cursor with what the failure asks for. -/
def recover (p : Recognizer m C α) (handle : NoSuccess → Recognizer m C α) :
    Recognizer m C α :=
  branch p succeed handle

/-- The first of two that does not fail. -/
def or (p q : Recognizer m C α) : Recognizer m C α :=
  recover p fun _ => q

/-- The first of several that does not fail, or the last one's failure. -/
def choice : List (Recognizer m C α) → Recognizer m C α
  | [] => fail "<no alternatives>"
  | [p] => p
  | p :: q :: ps => recover p fun _ => choice (q :: ps)

/-- A value if there is one. -/
def optional (p : Recognizer m C α) : Recognizer m C (Option α) :=
  recover (map some p) fun _ => succeed none

/-- A value, or the given one instead. -/
def orElse (default : α) (p : Recognizer m C α) : Recognizer m C α :=
  recover p fun _ => succeed default

/-- Reports failures under a name. -/
def named (name : String) (p : Recognizer m C α) : Recognizer m C α :=
  recover p fun reason => report (reason.expecting name)

end Parsing.Recognizer
