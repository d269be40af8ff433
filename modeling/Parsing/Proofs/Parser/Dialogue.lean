import Parsing.Proofs.Parser.Simulation

/-!
# Expressions as dialogues

What an expression does in one step is a finite dialogue with whoever runs the other expressions: it
asks for the run of one of them at some cursor, and goes on with the outcome. `Parser.plan` is that
dialogue. Holding it with any way of running expressions is `Parser.step` (`run_plan`), so that a
run of an expression is its dialogue, held with the runs below, and the books that are kept about it
(`eval_succ`). What all expressions have in common is proved of their dialogues.
-/

namespace Parsing

open Recognizer

/-- What is done up to the runs of expressions: it ends with a value, it stops, or it asks for a run
and goes on with its outcome. -/
inductive Dialogue (π : Type → Type) (ρ C α : Type) : Type 1 where
  | done (a : α)
  | stop (h : Halt)
  | ask {β : Type} (scope : Scope π ρ) (origin : Origin) (q : Parser π ρ β) (c : C)
    (next : Outcome C β → Dialogue π ρ C α)

namespace Dialogue

variable {π : Type → Type} {ρ C α β σ : Type}

/-- Goes on with a second dialogue after the first one. -/
def bind (x : Dialogue π ρ C α) (f : α → Dialogue π ρ C β) : Dialogue π ρ C β :=
  match x with
  | .done a => f a
  | .stop h => .stop h
  | .ask scope origin q c next => .ask scope origin q c fun o => (next o).bind f

instance : Monad (Dialogue π ρ C) where
  pure := done
  bind := bind

instance : Halting (Dialogue π ρ C) := ⟨stop⟩

/-- A dialogue that goes on with its value is the dialogue. -/
theorem bind_done (x : Dialogue π ρ C α) : x.bind done = x := by
  induction x with
  | done a => rfl
  | stop h => rfl
  | ask scope origin q c next ih => exact congrArg _ (funext ih)

/-- Dialogues may be grouped either way. -/
theorem bind_bind {γ : Type} (x : Dialogue π ρ C α) (f : α → Dialogue π ρ C β)
    (g : β → Dialogue π ρ C γ) : (x.bind f).bind g = x.bind fun a => (f a).bind g := by
  induction x with
  | done a => rfl
  | stop h => rfl
  | ask scope origin q c next ih => exact congrArg _ (funext ih)

instance : LawfulMonad (Dialogue π ρ C) :=
  LawfulMonad.mk' _ bind_done (fun _ _ => rfl) bind_bind

instance : Halting.Lawful (Dialogue π ρ C) :=
  ⟨fun _ _ => rfl⟩

/-- Holds a dialogue, where `answer` runs the expressions asked for. -/
def run (answer : {β : Type} → Scope π ρ → Origin → Parser π ρ β → Recognizer (Effect σ) C β) :
    Dialogue π ρ C α → Effect σ α
  | .done a => pure a
  | .stop h => halt h
  | .ask scope origin q c next => answer scope origin q c >>= fun o => (next o).run answer

variable {answer : {β : Type} → Scope π ρ → Origin → Parser π ρ β → Recognizer (Effect σ) C β}

/-- Holding two dialogues in sequence is holding one after the other. -/
theorem run_bind (x : Dialogue π ρ C α) (f : α → Dialogue π ρ C β) :
    (x >>= f).run answer = x.run answer >>= fun a => (f a).run answer := by
  induction x with
  | done a => rfl
  | stop h => rfl
  | ask scope origin q c next ih =>
    change (answer scope origin q c >>= fun o => (next o >>= f).run answer) = _
    rw [run, bind_assoc]
    exact congrArg _ (funext ih)

/-- Holding dialogues on the one side, runs on the other. -/
def simulation {T : Type} [Cursor C T]
    (answer : {β : Type} → Scope π ρ → Origin → Parser π ρ β → Recognizer (Effect σ) C β) :
    Simulation (Dialogue π ρ C) (Effect σ) (Correspondence.identity fun _ : C => True) where
  rel x y := x.run answer = y
  success := by
    rintro _ a c _ ⟨rfl, -⟩
    rfl
  failure := by
    intro _ r r' hr _
    rw [Correspondence.reason_identity.mp hr]
    rfl
  branch := by
    intro _ _ p p' next next' otherwise otherwise' c d hp hnext hotherwise
    unfold branch
    rw [run_bind, hp]
    congr 1
    funext o
    cases o with
    | success a rest => exact hnext a rest rest ⟨rfl, trivial⟩
    | noSuccess r =>
      by_cases hr : r.isFailure
      · simp only [hr, if_true]
        exact hotherwise r r (Correspondence.reason_identity.mpr rfl) hr
      · simp only [hr]
        rfl

end Dialogue

namespace Parser

variable {π : Type → Type} {C T ρ σ α : Type} [Cursor C T] [Primitive π] [Primitive.Runs π C]

/-- What an expression does at a cursor, up to the runs of other expressions. -/
def plan (env : Environment π ρ) (fuel : Nat) (ctx : Context π ρ) (p : Parser π ρ α) :
    Recognizer (Dialogue π ρ C) C α :=
  p.step env fuel (fun scope origin q c => .ask scope origin q c .done) ctx

section

variable (answer : {β : Type} → Scope π ρ → Origin → Parser π ρ β → Recognizer (Effect σ) C β)

omit [Primitive π] [Primitive.Runs π C] in
/-- Asking for a run and nothing else is that run. -/
theorem related_ask (scope : Scope π ρ) (origin : Origin) (q : Parser π ρ α) :
    (Dialogue.simulation answer).Related (fun c => .ask scope origin q c .done)
      (answer scope origin q) := by
  rintro c d ⟨rfl, -⟩
  exact bind_pure (answer scope origin q c)

/-- Holding the dialogue of an expression is its step. -/
theorem run_plan (env : Environment π ρ) (fuel : Nat) (ctx : Context π ρ) (p : Parser π ρ α)
    (c : C) : (p.plan env fuel ctx c).run answer = p.step env fuel answer ctx c := by
  suffices (Dialogue.simulation answer).Related (p.plan env fuel ctx) (p.step env fuel answer ctx)
    from this c c ⟨rfl, trivial⟩
  refine (Dialogue.simulation answer).related_step_of_ask p (related_ask answer) ?_ ?_ ?_
  · rintro β q c d ⟨rfl, -⟩
    change (ofExcept (Primitive.Runs.parse q c) : Dialogue π ρ C _).run answer =
      ofExcept (Primitive.Runs.parse q c)
    cases Primitive.Runs.parse q c <;> rfl
  · rintro β expected c d ⟨rfl, -⟩
    rfl
  · exact fun h => rfl

end

/-! ## Runs -/

/-- How `eval` runs the expressions below one that runs in `build`. -/
def answer (env : Environment π ρ) (fuel : Nat) (build : BuildId) {β : Type} (scope : Scope π ρ)
    (origin : Origin) (q : Parser π ρ β) : Recognizer (Effect (Session C ρ)) C β := fun c => do
  let build ← update fun s : Session C ρ => s.enter build origin
  q.eval env fuel { scope, build } c

/-- A run is a dialogue, held with the runs below, and the books that are kept about it. -/
theorem eval_succ (env : Environment π ρ) (fuel : Nat) (ctx : Context π ρ) (p : Parser π ρ α) :
    p.eval env (fuel + 1) ctx =
      p.attend env fun c : C => (p.plan env fuel ctx c).run (answer env fuel ctx.build) := by
  rw [funext (run_plan (answer env fuel ctx.build) env fuel ctx p)]
  rfl

/-- Whether books are kept about an expression. -/
def keepsBooks : Parser π ρ α → Bool
  | .rule _ | .tally _ _ => true
  | _ => false

/-- Whether an expression is a rule. -/
def isRule : Parser π ρ α → Bool
  | .rule _ => true
  | _ => false

omit [Primitive π] [Primitive.Runs π C] in
/-- If no books are kept about an expression, nothing is added to its run. -/
theorem attend_eq_self {m : Type → Type} [Monad m] [Stateful (Session C ρ) m]
    {env : Environment π ρ} {p : Parser π ρ α} (h : p.keepsBooks = false)
    (q : Recognizer m C α) : p.attend env q = q := by
  cases p with
  | rule | tally => cases h
  | _ => rfl

/-- Counts an outcome under a name if it is a success. -/
def counted {m : Type → Type} [Monad m] [Stateful (Session C ρ) m] (name : String)
    (o : Outcome C α) : m (Outcome C α) :=
  match o with
  | .success a rest => do
    update fun s : Session C ρ => ((), s.tally name)
    pure (.success a rest)
  | .noSuccess r => pure (.noSuccess r)

omit [Primitive π] [Primitive.Runs π C] in
/-- About a counted expression its successes are counted. -/
theorem attend_tally {m : Type → Type} [Monad m] [Stateful (Session C ρ) m]
    {env : Environment π ρ} (name : String) (p : Parser π ρ α) (q : Recognizer m C α) (c : C) :
    (tally name p).attend env q c = q c >>= counted (ρ := ρ) name := by
  refine congrArg (q c >>= ·) (funext fun o => ?_)
  cases o with
  | success a rest => rfl
  | noSuccess r =>
    -- a failure and an error are handled apart, but alike
    change (if r.isFailure then _ else _) = _
    split <;> rfl

omit [Primitive π] [Primitive.Runs π C] in
/-- Books are kept about rules and about tallied expressions only. -/
@[elab_as_elim]
theorem books {motive : ∀ {α : Type}, Parser π ρ α → Prop}
    (none : ∀ {α : Type} (p : Parser π ρ α), p.keepsBooks = false → motive p)
    (tally : ∀ {α : Type} (name : String) (p : Parser π ρ α), motive (.tally name p))
    (rule : ∀ r : Rule, motive (.rule r : Parser π ρ ρ)) {α : Type} (p : Parser π ρ α) :
    motive p := by
  cases p with
  | tally name p => exact tally name p
  | rule r => exact rule r
  | _ => exact none _ rfl

omit [Primitive π] [Primitive.Runs π C] in
/-- Apart from rules, the books that are kept about an expression do not change what it comes to. -/
theorem fst_run_attend {env : Environment π ρ} {p : Parser π ρ α} (hrule : p.isRule = false)
    (q : Recognizer (Effect (Session C ρ)) C α) (c : C) (s : Session C ρ) :
    ((p.attend env q c).run s).1 = ((q c).run s).1 := by
  induction p using books with
  | none p hp => rw [attend_eq_self hp]
  | tally name p =>
    rw [attend_tally, Effect.run_bind]
    rcases (q c).run s with ⟨_ | ⟨a, d⟩ | r, t⟩ <;> rfl
  | rule r => cases hrule

end Parser

end Parsing
