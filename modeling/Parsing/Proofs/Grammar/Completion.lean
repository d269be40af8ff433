import Parsing.Proofs.Grammar.Alive

/-!
# Rules that get their parsers later

While a grammar is built some of its rules have no parser yet, and a run that calls one of them
stops. So a run that comes to an outcome has called none of them, and comes to the same outcome
when they have got their parsers (`Environment.Completes.eval_follows`), however the others that it
may call were bound before. Building completes what rules stand for in this sense
(`Draft.completes_next`), as long as expressions refer to rules that were declared.
-/

namespace Parsing

open Recognizer

variable {π : Type → Type} {C T ρ α : Type}

/-! ## Runs -/

/-- A dialogue that conducts itself follows itself if all that it may ask for does. -/
theorem Dialogue.Obeys.follows {σ τ : Type} [Cursor C T] {K : Conduct π ρ} {S : σ → τ → Prop}
    {answer : {β : Type} → Scope π ρ → Origin → Parser π ρ β → Recognizer (Effect σ) C β}
    {answer' : {β : Type} → Scope π ρ → Origin → Parser π ρ β → Recognizer (Effect τ) C β}
    (h : ∀ {β : Type} {scope origin} {q : Parser π ρ β} {c : C}, K.asks scope q →
      Follows S (·.Permitted K.errors) (answer scope origin q c) (answer' scope origin q c))
    {x : Dialogue π ρ C (Outcome C α)} (hx : x.Obeys K) :
    Follows S (·.Permitted K.errors) (x.run answer) (x.run answer') := by
  induction hx with
  | done ho => exact .pure ho
  | stop => exact .halt _ _
  | ask hq _ ih => exact (h hq).bind ih

/-- Whether some rules stand for what they stood for, if they stood for anything: those that had no
parser may have one now. -/
structure Environment.Completes (env env' : Environment π ρ) (M : Rule → Prop) : Prop where
  rule {r : Rule} : M r → env.rule r.id ≠ .unbound → env'.rule r.id = env.rule r.id
  definition : env'.definition = env.definition

namespace Environment.Completes

variable {env env' env'' : Environment π ρ} {M M' : Rule → Prop}

/-- Rules stand for what they stand for. -/
theorem refl (env : Environment π ρ) (M : Rule → Prop) : env.Completes env M where
  rule _ _ := rfl
  definition := rfl

/-- What is completed may be completed further. -/
theorem trans (h : env.Completes env' M) (hM : ∀ r, M r → M' r) (h' : env'.Completes env'' M') :
    env.Completes env'' M where
  rule hr hbound := by
    have heq := h.rule hr hbound
    rw [← heq] at hbound ⊢
    exact h'.rule (hM _ hr) hbound
  definition := h'.definition.trans h.definition

variable [Cursor C T] [Primitive π] [Primitive.Runs π C]

/-- An expression goes on as it did, if it did not stop at a rule without a parser. -/
theorem plan_eq_or_stop (h : env.Completes env' M) {p : Parser π ρ α}
    (hp : p.Refers M fun _ => True) (fuel : Nat) (ctx : Context π ρ) (c : C) :
    p.plan env' fuel ctx c = p.plan env fuel ctx c ∨
      ∃ halt, p.plan env fuel ctx c = .stop halt := by
  cases p with
  | rule r =>
    by_cases hbound : env.rule r.id = .unbound
    · refine .inr ⟨.unboundRule r.name, ?_⟩
      rw [Parser.plan, Parser.step_rule, hbound]
      rfl
    · rw [Parser.plan, Parser.plan, Parser.step_rule, Parser.step_rule, h.rule hp hbound]
      exact .inl rfl
  | define site name =>
    refine .inl ?_
    change Dialogue.ask [] _ (env'.definition name) c _ =
      Dialogue.ask [] _ (env.definition name) c _
    rw [h.definition]
  | _ => exact .inl rfl

variable [Primitive.Lawful π C] [Primitive.StopsInCharacters π C]

/-- A run that comes to an outcome goes the same way when the rules that had no parser have one. -/
theorem eval_follows (h : env.Completes env' M) (henv : env.Refers M fun _ => True) (fuel : Nat)
    {ctx : Context π ρ} (hscope : ctx.scope.All (Parser.Refers M fun _ => True))
    {p : Parser π ρ α} (hp : p.All (Parser.Refers M fun _ => True)) (c : C) :
    Follows (Eq (α := Session C ρ)) (fun _ => True) (p.eval env fuel ctx c)
      (p.eval env' fuel ctx c) := by
  let K := Conduct.naming π ρ M (fun _ => True) fun _ => True
  have hK : K.KeptBy env := .of_refers henv (fun _ _ _ => trivial) fun _ _ _ => trivial
  have hpermitted {β : Type} (o : Outcome C β) : o.Permitted K.errors := by
    cases o with
    | success => trivial
    | noSuccess => exact fun _ _ _ => trivial
  induction fuel generalizing α ctx c with
  | zero => exact .halt _ _
  | succ n ih =>
    have below : Follows (Eq (α := Session C ρ)) (fun _ => True)
        ((p.plan env n ctx c).run (Parser.answer env n ctx.build))
        ((p.plan env' n ctx c).run (Parser.answer env' n ctx.build)) := by
      -- only a rule without a parser does anything else, and that stops the run
      rcases h.plan_eq_or_stop hp.self n ctx c with hplan | ⟨halt, hplan⟩
      · rw [hplan]
        refine ((hK.obeys_plan ⟨hscope, hp⟩ n c).follows fun hq => ?_).imp fun _ _ => trivial
        rintro s _ rfl o s' hrun
        obtain ⟨t, ht, rfl, -⟩ := ih hq.1 hq.2 _ _ _ rfl o s' hrun
        exact ⟨_, ht, rfl, hpermitted o⟩
      · rw [hplan]
        exact .halt _ _
    rw [Parser.eval_succ, Parser.eval_succ]
    refine Follows.attend (fun name hst => congrArg (·.tally name) hst) (fun hrule => ?_) below
    cases p with
    | rule r =>
      by_cases hbound : env.rule r.id = .unbound
      · rw [Parser.attend_rule, hbound, Parser.plan, Parser.step_rule, hbound]
        exact .halt _ _
      · have hattend (q : Recognizer (Effect (Session C ρ)) C ρ) :
            (Parser.rule r).attend env' q = (Parser.rule r).attend env q := by
          rw [Parser.attend_rule, Parser.attend_rule, h.rule hp hbound]
        rw [hattend]
        refine Follows.attend_self (fun name hst => congrArg (·.tally name) hst) ?_ ?_ (.rule r) c
          below
        · rintro s _ r' key rfl
          exact ⟨rfl, rfl⟩
        · rintro s _ r' key o rfl
          rfl
    | _ => cases hrule

/-- A run that came to an outcome comes to it again after more rules were bound. -/
theorem run_eq (h : env.Completes env' M) (henv : env.Refers M fun _ => True) {fuel : Nat}
    {ctx : Context π ρ} (hscope : ctx.scope.All (Parser.Refers M fun _ => True))
    {p : Parser π ρ α} (hp : p.All (Parser.Refers M fun _ => True)) {c : C} {s s' : Session C ρ}
    {o : Outcome C α} (hrun : p.run env fuel ctx c s = (.ok o, s')) :
    p.run env' fuel ctx c s = (.ok o, s') := by
  obtain ⟨t, ht, rfl, -⟩ := h.eval_follows henv fuel hscope hp c s s rfl o s' hrun
  exact ht

end Environment.Completes

/-! ## Building -/

namespace Draft

variable {d : Draft π ρ} {definition : String → Parser π ρ ρ}

/-- What names stand for while a grammar is built. -/
def environment (d : Draft π ρ) (definition : String → Parser π ρ ρ) : Environment π ρ :=
  ⟨d.registry.binding, definition⟩

/-- Whether a rule was declared, by this grammar or by another one. -/
def Knows (d : Draft π ρ) (r : Rule) : Prop :=
  ∃ packrat, d.registry.Declared packrat r.id

/-- What a step makes of the registry. -/
theorem registry_next (d : Draft π ρ) (step : Step π ρ) :
    (d.next step).registry = d.registry ∨
      (∃ slot, (d.next step).registry = ⟨d.registry.slots ++ [slot]⟩) ∨
      ∃ r build body, d.registry.bind r build body = .ok (d.next step).registry := by
  unfold next
  cases step with
  | declare name =>
    rcases hrun : d.grammar.declare name d.registry with e | ⟨r, g, reg⟩
    · rw [perform, hrun]
      exact .inl rfl
    · obtain ⟨-, -, rfl⟩ := Grammar.slots_of_declare hrun
      rw [perform, hrun]
      exact .inr (.inl ⟨_, rfl⟩)
  | bind r build body =>
    rcases hrun : d.registry.bind r build body with e | reg
    · rw [perform, hrun]
      exact .inl rfl
    · rw [perform, hrun]
      exact .inr (.inr ⟨r, build, body, hrun⟩)

/-- A rule that was declared stays declared. -/
theorem Knows.next {r : Rule} (h : d.Knows r) (step : Step π ρ) : (d.next step).Knows r := by
  obtain ⟨packrat, h⟩ := h
  refine ⟨packrat, ?_⟩
  rcases d.registry_next step with heq | ⟨slot, heq⟩ | ⟨r, build, body, hrun⟩
  · rwa [heq]
  · rw [heq]
    exact h.append slot
  · exact h.bind hrun

/-- A step of building leaves rules that were declared as they were, apart from one that had no
parser. -/
theorem completes_next (d : Draft π ρ) (step : Step π ρ) (definition : String → Parser π ρ ρ) :
    (d.environment definition).Completes ((d.next step).environment definition) d.Knows where
  rule {r} hr hbound := by
    obtain ⟨packrat, hr⟩ := hr
    change (d.next step).registry.binding r.id = d.registry.binding r.id
    rcases d.registry_next step with heq | ⟨slot, heq⟩ | ⟨r', build, body, hrun⟩
    · rw [heq]
    · rw [heq, hr.binding_append]
    · obtain ⟨hunbound, -, hother⟩ := Registry.binding_of_bind hrun
      refine hother r.id fun hid => hbound ?_
      rw [environment, hid]
      exact hunbound
  definition := rfl

end Draft

end Parsing
