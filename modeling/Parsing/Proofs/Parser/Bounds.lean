import Parsing.Proofs.Parser.Dialogue

/-!
# Bounds

How deep a run may be decides whether it is stopped for its depth, and nothing else: a run that was
not ends in the same way and in the same session with every greater bound (`Parser.run_of_le`). So
an expression ends in one way at most, however deep it has to run (`Parser.EndsIn`,
`Parser.EndsIn.unique`).
-/

namespace Parsing

/-! ## Runs that reach their bounds -/

namespace Effect

variable {σ α β : Type}

/-- Whether a run does what another one does unless it reaches its bound. -/
def UpToBound (x y : Effect σ α) : Prop :=
  ∀ s, (x.run s).1 = .error .outOfFuel ∨ x.run s = y.run s

namespace UpToBound

/-- A run does what it does. -/
theorem refl (x : Effect σ α) : UpToBound x x :=
  fun _ => .inr rfl

/-- A run that has reached its bound may have done anything. -/
theorem outOfFuel (y : Effect σ α) : UpToBound (halt .outOfFuel) y :=
  fun _ => .inl rfl

/-- A run that has not reached its bound ends as the other one does. -/
theorem eq_of_run {x y : Effect σ α} (h : UpToBound x y) {s t : σ} {r : Except Halt α}
    (hr : r ≠ .error .outOfFuel) (hx : x.run s = (r, t)) : y.run s = (r, t) := by
  rcases h s with hbound | heq
  · rw [hx] at hbound
    exact absurd hbound hr
  · rw [← heq]
    exact hx

/-- Runs in sequence do the same up to their bounds. -/
theorem bind {x y : Effect σ α} {f g : α → Effect σ β} (hxy : UpToBound x y)
    (hfg : ∀ a, UpToBound (f a) (g a)) : UpToBound (x >>= f) (y >>= g) := by
  intro s
  rw [run_bind, run_bind]
  rcases hxy s with hbound | heq
  · left
    rcases hx : x.run s with ⟨r, t⟩
    rw [hx] at hbound
    cases hbound
    rfl
  · rw [← heq]
    rcases x.run s with ⟨h | a, t⟩
    · exact .inr rfl
    · exact hfg a t

/-- Doing the same unless the bound is reached, as a relation between recognizers. -/
def simulation {C T : Type} [Cursor C T] :
    Simulation (Effect σ) (Effect σ) (.identity fun _ : C => True) where
  rel := UpToBound
  success := by
    rintro _ a c _ ⟨rfl, -⟩
    exact .refl _
  failure := by
    intro _ r r' hr _
    rw [Correspondence.reason_identity.mp hr]
    exact .refl _
  branch := by
    intro _ _ p p' next next' otherwise otherwise' c d hp hnext hotherwise
    refine hp.bind fun o => ?_
    cases o with
    | success a e => exact hnext a e e ⟨rfl, trivial⟩
    | noSuccess r =>
      by_cases hr : r.isFailure
      · simp only [hr, if_true]
        exact hotherwise r r (Correspondence.reason_identity.mpr rfl) hr
      · simp only [hr]
        exact .refl _

end UpToBound

end Effect

/-! ## Expressions -/

namespace Parser

open Effect (UpToBound)

variable {π : Type → Type} {C T ρ α : Type} [Cursor C T] {env : Environment π ρ} {n m : Nat}

/-- The books are kept in the same way on both sides. -/
theorem upToBound_attend {q q' : Recognizer (Effect (Session C ρ)) C α} (p : Parser π ρ α) {c : C}
    (h : UpToBound (q c) (q' c)) : UpToBound (p.attend env q c) (p.attend env q' c) := by
  induction p using books with
  | none p hp =>
    rw [attend_eq_self hp, attend_eq_self hp]
    exact h
  | tally name p =>
    rw [attend_tally, attend_tally]
    exact h.bind fun _ => .refl _
  | rule r =>
    rw [attend_rule, attend_rule]
    split
    · refine (UpToBound.refl _).bind fun entry => ?_
      rcases entry with _ | _ | o
      · exact h.bind fun _ => .refl _
      · exact .refl _
      · exact .refl _
    · exact h

variable [Primitive π] [Primitive.Runs π C]

/-- With a greater bound, and with runs that do the same, an expression does the same. -/
theorem upToBound_step {ctx : Context π ρ} (p : Parser π ρ α) (hnm : n ≤ m)
    {run run' : {β : Type} → Scope π ρ → Origin → Parser π ρ β →
      Recognizer (Effect (Session C ρ)) C β}
    (h : ∀ {β : Type} scope origin (q : Parser π ρ β) c,
      UpToBound (run scope origin q c) (run' scope origin q c)) (c : C) :
    UpToBound (p.step env n run ctx c) (p.step env m run' ctx c) := by
  have ask {β : Type} (scope origin) (q : Parser π ρ β) :
      UpToBound.simulation.Related (run scope origin q) (run' scope origin q) := by
    rintro d _ ⟨rfl, -⟩
    exact h scope origin q d
  have same {β : Type} (q : Recognizer (Effect (Session C ρ)) C β) :
      UpToBound.simulation.Related q q := by
    rintro d _ ⟨rfl, -⟩
    exact .refl _
  -- only loops look at the bound, and they stop where it is reached
  suffices UpToBound.simulation.Related (p.step env n run ctx) (p.step env m run' ctx) from
    this c c ⟨rfl, trivial⟩
  refine UpToBound.simulation.related_step_of_identity hnm (fun q origin => ask _ origin q) ?_
    (fun _ => same _) (fun _ => same _) fun y _ => .outOfFuel y
  intro hp
  cases p with
  | recursive name body => exact ask _ .same body
  | self name =>
    rw [step_self, step_self]
    split
    · exact same _
    · exact same _
    · exact ask _ _ _
  | define site name => exact ask _ _ _
  | rule r =>
    rw [step_rule, step_rule]
    split
    · exact same _
    · exact same _
    · exact ask _ _ _
  | _ => cases hp

/-- With a greater bound an expression does the same, unless it reaches the lesser one. -/
theorem upToBound_eval (hnm : n ≤ m) (ctx : Context π ρ) (p : Parser π ρ α) (c : C) :
    UpToBound (p.eval env n ctx c : Effect (Session C ρ) (Outcome C α)) (p.eval env m ctx c) := by
  induction n generalizing α m ctx c with
  | zero => exact .outOfFuel _
  | succ n ih =>
    obtain ⟨k, rfl⟩ := Nat.exists_eq_add_of_le' (Nat.le_trans (Nat.le_add_left 1 n) hnm)
    refine upToBound_attend p (upToBound_step p (Nat.le_of_succ_le_succ hnm) ?_ c)
    intro β scope origin q d
    exact (UpToBound.refl _).bind fun build => ih (Nat.le_of_succ_le_succ hnm) ⟨scope, build⟩ q d

variable {ctx : Context π ρ} {p : Parser π ρ α} {c : C} {s t u : Session C ρ}
  {x y : Except Halt (Outcome C α)}

/-- A run that did not reach its bound is the same with a greater bound. -/
theorem run_of_le (hnm : n ≤ m) (hx : x ≠ .error .outOfFuel)
    (h : p.run env n ctx c s = (x, t)) : p.run env m ctx c s = (x, t) :=
  (upToBound_eval hnm ctx p c).eq_of_run hx h

/-- Whether an expression ends in a way and in a session, however deep it has to run for that. -/
def EndsIn (env : Environment π ρ) (ctx : Context π ρ) (p : Parser π ρ α) (c : C) (s : Session C ρ)
    (x : Except Halt (Outcome C α)) (t : Session C ρ) : Prop :=
  x ≠ .error .outOfFuel ∧ ∃ n, p.run env n ctx c s = (x, t)

/-- What ends within some bound ends in the same way within all that are greater. -/
theorem EndsIn.exists_le (h : p.EndsIn env ctx c s x t) :
    ∃ n, ∀ m, n ≤ m → p.run env m ctx c s = (x, t) := by
  obtain ⟨hx, n, hn⟩ := h
  exact ⟨n, fun m hnm => run_of_le hnm hx hn⟩

/-- An expression ends in one way. -/
theorem EndsIn.unique (h : p.EndsIn env ctx c s x t) (h' : p.EndsIn env ctx c s y u) :
    x = y ∧ t = u := by
  obtain ⟨n, hn⟩ := h.exists_le
  obtain ⟨m, hm⟩ := h'.exists_le
  have hrun := hn (max n m) (Nat.le_max_left n m)
  rw [hm (max n m) (Nat.le_max_right n m)] at hrun
  cases hrun
  exact ⟨rfl, rfl⟩

end Parser

end Parsing
