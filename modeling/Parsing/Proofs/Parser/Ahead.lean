import Parsing.Proofs.Cursor.Progress
import Parsing.Proofs.Parser.Dialogue

/-!
# Looking ahead

An expression that runs at a cursor asks for runs at that cursor and at later ones only, and what it
leaves is a later cursor again: nothing looks behind (`ahead_plan`). A `Manner` says what else is
known of a dialogue, namely which runs it may ask for, whether it may stop and whether it may end
with an error of its own.
-/

namespace Parsing

open Recognizer Cursor

section Outcomes

variable {C T α : Type} [Cursor C T] {c d : C} {o : Outcome C α}

/-- Whether an outcome leaves a cursor behind a given one, if it leaves any. -/
def Outcome.Within (c : C) : Outcome C α → Prop
  | .success _ d => After c d
  | .noSuccess _ => True

/-- Without a success no cursor is left. -/
theorem Outcome.within_noSuccess (c : C) (reason : NoSuccess) :
    (noSuccess reason : Outcome C α).Within c :=
  trivial

/-- What is left behind a later cursor is left behind an earlier one. -/
theorem Outcome.Within.trans (h : After c d) (ho : o.Within d) : o.Within c := by
  cases o with
  | success a e => exact After.trans h ho
  | noSuccess r => trivial

end Outcomes

/-- What a dialogue may do. -/
structure Manner (π : Type → Type) (ρ : Type) where
  /-- Whether it may ask for an expression in a scope. -/
  asks {β : Type} : Scope π ρ → Parser π ρ β → Prop
  /-- Whether it may stop. -/
  stops : Prop
  /-- Whether it may end with an error that is no answer to it. -/
  errors : Prop

/-- The manner of dialogues of which nothing is known. -/
def Manner.any {π : Type → Type} {ρ : Type} : Manner π ρ :=
  ⟨fun _ _ => True, True, True⟩

namespace Dialogue

variable {π : Type → Type} {C T ρ α β : Type} [Cursor C T] {M : Manner π ρ} {base : C}

/-- Whether a dialogue has a manner and looks ahead from a cursor only, as long as the answers
do. -/
inductive Ahead (M : Manner π ρ) (base : C) : Dialogue π ρ C (Outcome C α) → Prop where
  | done {o : Outcome C α} (h : o.Within base) (he : o.isError = true → M.errors) :
    Ahead M base (.done o)
  | stop (halt : Halt) (h : M.stops) : Ahead M base (.stop halt)
  | ask {β : Type} {scope : Scope π ρ} {origin : Origin} {q : Parser π ρ β} {c : C}
    {next : Outcome C β → Dialogue π ρ C (Outcome C α)} (hq : M.asks scope q) (hc : After base c)
    (hnext : ∀ o, o.Within c → (o.isError = true → M.errors) → Ahead M base (next o)) :
    Ahead M base (.ask scope origin q c next)

/-- A branch looks ahead if its parts do. -/
theorem Ahead.branch {p : Recognizer (Dialogue π ρ C) C α} {c : C}
    {next : α → Recognizer (Dialogue π ρ C) C β}
    {otherwise : NoSuccess → Recognizer (Dialogue π ρ C) C β} (hp : Ahead M base (p c))
    (hnext : ∀ a d, After base d → Ahead M base (next a d))
    (hotherwise : ∀ r, r.isFailure = true → Ahead M base (otherwise r c)) :
    Ahead M base (Recognizer.branch p next otherwise c) := by
  unfold Recognizer.branch
  generalize p c = x at hp
  induction hp with
  | @done o h he =>
    cases o with
    | success a d => exact hnext a d h
    | noSuccess r =>
      change Ahead M base (if r.isFailure then otherwise r c else Dialogue.done (.noSuccess r))
      split
      · exact hotherwise r ‹_›
      · exact .done h he
  | stop halt h => exact .stop halt h
  | ask hq hc _ ih => exact .ask hq hc ih

/-- A success leads to where it says. -/
theorem ahead_success (a : α) (h : After base c) : Ahead M base (.done (.success a c)) :=
  .done h fun he => absurd he Bool.false_ne_true

/-- A failure may be reported in every manner. -/
theorem ahead_report {r : NoSuccess} (h : r.isFailure = true) :
    Ahead (α := α) M base (.done (.noSuccess r)) := by
  refine .done (Outcome.within_noSuccess base r) fun he => ?_
  change r.isError = true at he
  rw [NoSuccess.isError_eq_not_isFailure, h] at he
  cases he

/-- Looking ahead, as a relation that looks at one of its sides only. -/
def ahead (M : Manner π ρ) (base : C) :
    Simulation (Dialogue π ρ C) (Dialogue π ρ C) (.identity (After base)) where
  rel x _ := Ahead M base x
  success a _ _ h := ahead_success a h.2
  failure _ h := ahead_report h
  branch hp hnext hotherwise := hp.branch (fun a d hd => hnext a d d ⟨rfl, hd⟩)
    fun r hr => hotherwise r r (Correspondence.reason_identity.mpr rfl) hr

/-- Asking for a run looks ahead, if the run does. -/
theorem related_ahead_ask {scope : Scope π ρ} {origin : Origin} {q : Parser π ρ α}
    (hq : M.asks scope q) :
    (ahead M base).Related (fun c => .ask scope origin q c .done)
      (fun c => .ask scope origin q c .done) := by
  rintro c _ ⟨rfl, hc⟩
  exact .ask hq hc fun o ho he => .done (ho.trans hc) he

end Dialogue

namespace Parser

variable {π : Type → Type} {C T ρ α : Type} [Cursor C T] [Primitive π] [Primitive.Runs π C]
  [Primitive.Lawful π C] {base c : C}

omit [Primitive π] in
/-- A primitive parser looks ahead, by its laws. -/
theorem ahead_primitive {M : Manner π ρ} (hstops : M.stops) (q : π α) (hc : After base c) :
    Dialogue.Ahead M base (ofExcept (Primitive.Runs.parse q c)) := by
  cases h : Primitive.Runs.parse q c with
  | error halt => exact .stop halt hstops
  | ok o =>
    cases o with
    | success a d => exact Dialogue.ahead_success a (hc.trans (Primitive.Lawful.after_of_success h))
    | noSuccess r => exact Dialogue.ahead_report (Primitive.Lawful.isFailure_of_noSuccess h)

/-- Expressions look ahead only. -/
theorem ahead_plan (env : Environment π ρ) (fuel : Nat) (ctx : Context π ρ) (p : Parser π ρ α)
    (hc : After base c) : (p.plan env fuel ctx c).Ahead .any base := by
  suffices (Dialogue.ahead .any base).Related (p.plan env fuel ctx) (p.plan env fuel ctx) from
    this c c ⟨rfl, hc⟩
  refine (Dialogue.ahead .any base).related_step_of_ask p ?_ ?_ ?_ fun h => .stop h trivial
  · exact fun _ _ _ => Dialogue.related_ahead_ask trivial
  · exact fun q c d h => ahead_primitive trivial q h.2
  · exact fun expected c d h => .done (Outcome.within_noSuccess base _) fun _ => trivial

end Parser

end Parsing
