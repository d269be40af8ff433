import Mathlib.Data.List.OfFn
import Parsing.Proofs.Recognizer.Runs
import Parsing.Recognizer.Choice

/-!
# Choice is associative

A choice among several recognizers is made of choices between two (`choice_cons`), which may be
grouped in any way (`or_assoc`). So a choice among choices is one choice among all that they offer,
from left to right (`choice_flatten`). Nothing is behind what does not fail (`run_or_of_not_fails`).
-/

namespace Parsing

/-- Whether an alternative is tried behind a run that ended in this way. -/
def Fails {C α : Type} (x : Except Halt (Outcome C α)) : Prop :=
  ∃ r : NoSuccess, r.isFailure = true ∧ x = .ok (.noSuccess r)

/-- What came to an outcome fails if that is a failure. -/
theorem fails_ok_iff {C α : Type} {o : Outcome C α} :
    Fails (.ok o : Except Halt (Outcome C α)) ↔ o.isFailure = true := by
  constructor
  · rintro ⟨r, hr, h⟩
    cases h
    exact hr
  · intro ho
    cases o with
    | success a d => cases ho
    | noSuccess r => exact ⟨r, ho, rfl⟩

namespace Recognizer

universe u

/-! ## Grouping -/

section Laws

variable {m : Type → Type u} [Monad m] [LawfulMonad m] {C T α : Type} [Cursor C T]

omit [Cursor C T] in
/-- Choices between two may be grouped either way. -/
theorem or_assoc (p q r : Recognizer m C α) : or (or p q) r = or p (or q r) := by
  funext c
  change branch (branch p succeed fun _ => q) succeed (fun _ => r) c =
    branch p succeed (fun _ => branch q succeed fun _ => r) c
  rw [branch, branch, branch, bind_assoc]
  congr 1
  funext o
  cases o with
  | success a d => exact pure_bind _ _
  | noSuccess reason =>
    by_cases hreason : reason.isFailure
    · simp only [hreason, if_true]
      rfl
    · simp only [hreason, Bool.false_eq_true, if_false, pure_bind]

variable {ps qs : List (Recognizer m C α)}

omit [LawfulMonad m] in
/-- A choice among several is one between the first and the others. -/
theorem choice_cons (p : Recognizer m C α) (hps : ps ≠ []) :
    choice (p :: ps) = or p (choice ps) := by
  cases ps with
  | nil => exact absurd rfl hps
  | cons q ps => rfl

/-- A choice among the elements of two lists is one between a choice among each. -/
theorem choice_append (hps : ps ≠ []) (hqs : qs ≠ []) :
    choice (ps ++ qs) = or (choice ps) (choice qs) := by
  induction ps with
  | nil => exact absurd rfl hps
  | cons p ps ih =>
    cases ps with
    | nil => exact choice_cons p hqs
    | cons p' ps =>
      rw [List.cons_append, choice_cons p (by simp), ih (by simp), choice_cons p (by simp),
        or_assoc]

/-- A choice among choices is a choice among all of their alternatives. -/
theorem choice_flatten {pss : List (List (Recognizer m C α))} (h : ∀ ps ∈ pss, ps ≠ []) :
    choice (pss.map choice) = choice pss.flatten := by
  induction pss with
  | nil => rfl
  | cons ps pss ih =>
    obtain ⟨hps, hpss⟩ := List.forall_mem_cons.mp h
    cases pss with
    | nil => simp [choice]
    | cons qs pss =>
      have hrest : (qs :: pss).flatten ≠ [] := by
        intro hnil
        exact hpss qs List.mem_cons_self (List.flatten_eq_nil_iff.mp hnil qs List.mem_cons_self)
      calc choice ((ps :: qs :: pss).map choice)
          = or (choice ps) (choice ((qs :: pss).map choice)) := choice_cons _ (by simp)
        _ = or (choice ps) (choice (qs :: pss).flatten) := by rw [ih hpss]
        _ = choice (ps ++ (qs :: pss).flatten) := (choice_append hps hrest).symm

end Laws

/-! ## Runs -/

section Runs

variable {σ C α : Type} {c : C} {s t : σ} {p q : Recognizer (Effect σ) C α}
  {x : Except Halt (Outcome C α)}

/-- After a failure, a choice does what its second side does. -/
theorem run_or_of_failure {r : NoSuccess} (hr : r.isFailure = true)
    (h : (p c).run s = (.ok (.noSuccess r), t)) : (or p q c).run s = (q c).run t :=
  run_branch_failure hr h

/-- After anything but a failure, a choice is at its end. -/
theorem run_or_of_not_fails (hx : ¬ Fails x) (h : (p c).run s = (x, t)) :
    (or p q c).run s = (x, t) := by
  rcases x with halt | ⟨a, d⟩ | r
  · change (branch p _ _ c).run s = _
    rw [branch, Effect.run_bind, h]
  · exact run_branch_success h
  · exact run_branch_error (fun hr => hx ⟨r, hr, rfl⟩) h

end Runs

end Recognizer

end Parsing
