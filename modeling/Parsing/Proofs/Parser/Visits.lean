import Parsing.Proofs.Parser.Errors
import Parsing.Proofs.Parser.Memo

/-!
# Visits of rules

`Parser.audit` runs an expression as `Parser.eval` does and writes down, for every rule that is come
to, where it was called, and where its parser was run. The two differ where a rule keeps a memo.
Auditing changes nothing (`erases_audit`).
-/

namespace Parsing

open Recognizer

/-- What is written down of a rule. -/
inductive Visit where
  /-- The rule was called at a place. -/
  | called (r : RuleId) (key : MemoKey)
  /-- The parser of the rule was run at a place. -/
  | invoked (r : RuleId) (key : MemoKey)
  deriving DecidableEq

/-- Writes a visit down, and then runs. -/
def recorded {σ α : Type} (v : Visit) (x : Effect (σ × List Visit) α) :
    Effect (σ × List Visit) α :=
  ⟨fun (s, visits) => x.run (s, visits ++ [v])⟩

/-- A visit is written down first. -/
theorem run_recorded {σ α : Type} (v : Visit) (x : Effect (σ × List Visit) α) (s : σ)
    (visits : List Visit) : (recorded v x).run (s, visits) = x.run (s, visits ++ [v]) := rfl

namespace Parser

variable {π : Type → Type} {C T ρ σ α : Type} [Cursor C T]

/-- Runs a recognizer, and writes down a visit first if the expression is a rule. -/
def recording (visit : RuleId → MemoKey → Visit) :
    {α : Type} → Parser π ρ α → Recognizer (Effect (σ × List Visit)) C α →
      Recognizer (Effect (σ × List Visit)) C α
  | _, .rule r, q => fun c => recorded (visit r.id (Cursor.key c)) (q c)
  | _, _, q => q

/-- Of what is no rule, no visit is written down. -/
theorem recording_eq_self {visit : RuleId → MemoKey → Visit} {p : Parser π ρ α}
    (hp : p.isRule = false) (q : Recognizer (Effect (σ × List Visit)) C α) :
    p.recording visit q = q := by
  cases p with
  | rule => cases hp
  | _ => rfl

variable [Primitive π] [Primitive.Runs π C]

/-- Runs an expression as `eval` does, and writes down the visits of rules. -/
def audit (env : Environment π ρ) : {α : Type} → (fuel : Nat) → Context π ρ → Parser π ρ α →
    Recognizer (Effect (Session C ρ × List Visit)) C α
  | _, 0, _, _ => fun _ => halt .outOfFuel
  | _, n + 1, ctx, p =>
    p.recording .called <| p.attend env <| p.recording .invoked <| p.step env n
      (fun scope origin q c => do
        let build ← update fun s : Session C ρ => s.enter ctx.build origin
        q.audit env n { scope, build } c)
      ctx

/-- The visits of rules in a run. -/
def visits (p : Parser π ρ α) (env : Environment π ρ) (fuel : Nat) (ctx : Context π ρ) (c : C)
    (s : Session C ρ) : List Visit :=
  ((p.audit env fuel ctx c).run (s, [])).2.2

/-- How `audit` runs the expressions below one that runs in `build`. -/
def auditAnswer (env : Environment π ρ) (fuel : Nat) (build : BuildId) {β : Type}
    (scope : Scope π ρ) (origin : Origin) (q : Parser π ρ β) :
    Recognizer (Effect (Session C ρ × List Visit)) C β := fun c => do
  let build ← update fun s : Session C ρ => s.enter build origin
  q.audit env fuel { scope, build } c

/-- An audited run is a dialogue as well. -/
theorem audit_succ (env : Environment π ρ) (fuel : Nat) (ctx : Context π ρ) (p : Parser π ρ α) :
    p.audit env (fuel + 1) ctx =
      p.recording .called (p.attend env (p.recording .invoked fun c : C =>
        (p.plan env fuel ctx c).run (auditAnswer env fuel ctx.build))) := by
  rw [funext (run_plan (auditAnswer env fuel ctx.build) env fuel ctx p)]
  rfl

end Parser

namespace Recognizer

variable {C T ρ τ : Type} [Cursor C T] {r : RuleId} {c : C} {s s' : Session C ρ} {t t' : τ}
  {body : Recognizer (Effect (Session C ρ × τ)) C ρ} {o : Outcome C ρ}

/-- Running a rule that keeps a memo, with something added to the state. -/
theorem run_memoized_added (body : Recognizer (Effect (Session C ρ × τ)) C ρ) (s : Session C ρ)
    (t : τ) : (memoized r body c).run (s, t) =
      match s.lookup r (Cursor.key c) with
      | some (.resolved o) => (.ok o, (s.call r (Cursor.key c)).2, t)
      | some .pending => (.ok (.noSuccess (leftRecursion c)), (s.call r (Cursor.key c)).2, t)
      | none =>
        match (body c).run ((s.call r (Cursor.key c)).2, t) with
        | (.ok o, s', t') => (.ok o, s'.resolveCall r (Cursor.key c) o, t')
        | (.error halt, s', t') => (.error halt, s', t') := by
  have hcall : (update fun s : Session C ρ => s.call r (Cursor.key c) :
      Effect (Session C ρ × τ) (Option (MemoEntry C ρ))).run (s, t) =
        (.ok (s.lookup r (Cursor.key c)), (s.call r (Cursor.key c)).2, t) := rfl
  rw [memoized, Effect.run_bind, hcall]
  rcases hentry : s.lookup r (Cursor.key c) with _ | _ | o
  · dsimp only
    rw [Effect.run_bind]
    rcases (body c).run ((s.call r (Cursor.key c)).2, t) with ⟨_ | o, s₁, t₁⟩ <;> rfl
  · rfl
  · rfl

/-- Where an outcome comes from, with something added to the state (`memoized_cases`). -/
theorem memoized_cases_added (h : (memoized r body c).run (s, t) = (.ok o, s', t')) :
    (∃ e, s.lookup r (Cursor.key c) = some e ∧ s' = (s.call r (Cursor.key c)).2 ∧ t' = t ∧
      (e = .resolved o ∨ e = .pending ∧ o = .noSuccess (leftRecursion c))) ∨
      (s.lookup r (Cursor.key c) = none ∧ ∃ s₁,
        (body c).run ((s.call r (Cursor.key c)).2, t) = (.ok o, s₁, t') ∧
          s' = s₁.resolveCall r (Cursor.key c) o) := by
  rw [run_memoized_added] at h
  rcases hentry : s.lookup r (Cursor.key c) with _ | _ | o'
  all_goals rw [hentry] at h
  · dsimp only at h
    rcases hbody : (body c).run ((s.call r (Cursor.key c)).2, t) with ⟨_ | o', s₁, t₁⟩
    all_goals rw [hbody] at h
    · cases h
    · cases h
      exact .inr ⟨rfl, s₁, rfl, rfl⟩
  · cases h
    exact .inl ⟨_, rfl, rfl, rfl, .inr ⟨rfl, rfl⟩⟩
  · cases h
    exact .inl ⟨_, rfl, rfl, rfl, .inl rfl⟩

end Recognizer

/-! ## Auditing changes nothing -/

namespace Erases

variable {π : Type → Type} {C T ρ σ α : Type} [Cursor C T]

/-- A visit changes nothing about the run behind it. -/
theorem recorded {x : Effect (σ × List Visit) α} {y : Effect σ α} (h : Erases x y) (v : Visit) :
    Erases (Parsing.recorded v x) y :=
  fun s visits => h s (visits ++ [v])

/-- Writing visits down changes nothing about a run. -/
theorem recording {visit : RuleId → MemoKey → Visit} (p : Parser π ρ α)
    {q : Recognizer (Effect (σ × List Visit)) C α} {q' : Recognizer (Effect σ) C α}
    (h : ∀ c, Erases (q c) (q' c)) (c : C) : Erases (p.recording visit q c) (q' c) := by
  cases p with
  | rule r => exact (h c).recorded _
  | _ => exact h c

end Erases

variable {π : Type → Type} {C T ρ α : Type} [Cursor C T] [Primitive π] [Primitive.Runs π C]

/-- Writing visits down, an expression does what it does, by induction on its bound. -/
theorem erases_audit (env : Environment π ρ) (fuel : Nat) (ctx : Context π ρ) (p : Parser π ρ α)
    (c : C) : Erases (p.audit env fuel ctx c) (p.eval env fuel ctx c) := by
  induction fuel generalizing α ctx c with
  | zero => exact fun _ _ => rfl
  | succ n ih =>
    rw [Parser.audit_succ, Parser.eval_succ]
    have below (d : C) : Erases ((p.plan env n ctx d).run (Parser.auditAnswer env n ctx.build))
        ((p.plan env n ctx d).run (Parser.answer env n ctx.build)) :=
      .run (fun scope origin q d => (Erases.update _).bind fun build => ih _ q d) _
    exact .recording p (Erases.attend p (Erases.recording p below)) c

/-- An audited run ends as the run does. -/
theorem Parser.run_audit {env : Environment π ρ} {fuel : Nat} {ctx : Context π ρ} {p : Parser π ρ α}
    {c : C} {s s' : Session C ρ} {o : Outcome C α} (h : p.run env fuel ctx c s = (.ok o, s')) :
    (p.audit env fuel ctx c).run (s, []) = (.ok o, s', p.visits env fuel ctx c s) := by
  have herases := erases_audit env fuel ctx p c s []
  rw [show (p.eval env fuel ctx c).run s = (.ok o, s') from h] at herases
  obtain ⟨ho, hs⟩ := Prod.mk.inj herases
  exact Prod.ext ho (Prod.ext hs rfl)

end Parsing
