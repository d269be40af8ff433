import Parsing.Proofs.Parser.Conditions

/-!
# How runs conduct themselves

A `Conduct` says which expressions may be run in which scopes, for what a run may stop, and with
which errors it may end. If an environment lets every expression that may be run go on like that
(`Conduct.KeptBy`), then so do whole runs, as long as rules remember no other errors
(`Parser.eval_guides`). That is an induction on the depth of the run: what one step asks for, stops
for and ends with is a matter of its dialogue (`Dialogue.Obeys`).
-/

namespace Parsing

open Recognizer

/-- What the runs of some expressions may do. -/
structure Conduct (π : Type → Type) (ρ : Type) where
  /-- Whether an expression may be run in a scope. -/
  asks {β : Type} : Scope π ρ → Parser π ρ β → Prop
  /-- What a run may stop for. -/
  stops : Halt → Prop
  /-- The texts of the errors that a run may end with. -/
  errors : String → Prop
  /-- The rules that may be called and keep memos. -/
  memos : RuleId → Prop
  stops_outOfFuel : stops .outOfFuel
  stops_brokenCharacter : stops .brokenCharacter

/-- Whether an outcome is no error, or one of those allowed. -/
def Outcome.Permitted {C α : Type} (errors : String → Prop) : Outcome C α → Prop
  | .success _ _ => True
  | .noSuccess r => r.isFailure = false → errors r.expected

/-- A failure is permitted, whatever errors are. -/
theorem Outcome.permitted_of_isFailure {C α : Type} {errors : String → Prop} {r : NoSuccess}
    (h : r.isFailure = true) : (noSuccess r : Outcome C α).Permitted errors :=
  fun hr => absurd (h.symm.trans hr) Bool.noConfusion

/-- What is permitted is permitted if more errors are. -/
theorem Outcome.Permitted.imp {C α : Type} {errors errors' : String → Prop} {o : Outcome C α}
    (h : o.Permitted errors) (herrors : ∀ text, errors text → errors' text) :
    o.Permitted errors' := by
  cases o with
  | success => trivial
  | noSuccess r => exact fun hr => herrors _ (h hr)

/-- Primitive parsers that stop only where a move by bytes ends inside a character. -/
class Primitive.StopsInCharacters (π : Type → Type) (C : Type) [Primitive.Runs π C] : Prop where
  eq_of_stop {α : Type} {p : π α} {c : C} {halt : Halt} :
    Primitive.Runs.parse p c = .error halt → halt = .brokenCharacter

/-- A test on one token does not stop. -/
theorem Recognizer.satisfy_ne_error {C T : Type} [Cursor C T] {expected : String}
    {accepts : T → Bool} {c : C} {halt : Halt} :
    satisfy (m := Except Halt) expected accepts c ≠ .error halt := by
  rw [satisfy]
  intro h
  split at h
  · split at h <;> cases h
  · cases h

instance {C T : Type} [Cursor C T] : Primitive.StopsInCharacters (TokenTest T) C where
  eq_of_stop {_ p _ _} h := by
    cases p
    exact absurd h satisfy_ne_error

instance {C : Type} [TextCursor C] : Primitive.StopsInCharacters TextPrimitive C where
  eq_of_stop {_ p c _} h := by
    rcases p with test | s
    · exact Primitive.StopsInCharacters.eq_of_stop (p := test) (c := c) h
    · change scan (m := Except Halt) s c = _ at h
      rw [scan] at h
      split at h
      · cases h
      · split at h
        · cases h
        · cases h
          rfl

/-! ## Dialogues -/

namespace Dialogue

variable {π : Type → Type} {C T ρ α β : Type} [Cursor C T] {K : Conduct π ρ}

/-- Whether a dialogue conducts itself, as long as the answers are permitted. -/
inductive Obeys (K : Conduct π ρ) : Dialogue π ρ C (Outcome C α) → Prop where
  | done {o : Outcome C α} (h : o.Permitted K.errors) : Obeys K (.done o)
  | stop {halt : Halt} (h : K.stops halt) : Obeys K (.stop halt)
  | ask {β : Type} {scope : Scope π ρ} {origin : Origin} {q : Parser π ρ β} {c : C}
    {next : Outcome C β → Dialogue π ρ C (Outcome C α)} (hq : K.asks scope q)
    (hnext : ∀ o, o.Permitted K.errors → Obeys K (next o)) : Obeys K (.ask scope origin q c next)

/-- A branch conducts itself if its parts do. -/
theorem Obeys.branch {p : Recognizer (Dialogue π ρ C) C α} {c : C}
    {next : α → Recognizer (Dialogue π ρ C) C β}
    {otherwise : NoSuccess → Recognizer (Dialogue π ρ C) C β} (hp : Obeys K (p c))
    (hnext : ∀ a d, Obeys K (next a d))
    (hotherwise : ∀ r, r.isFailure = true → Obeys K (otherwise r c)) :
    Obeys K (Recognizer.branch p next otherwise c) := by
  unfold Recognizer.branch
  generalize p c = x at hp
  -- the dialogue goes on only where that of the first part ends
  induction hp with
  | @done o h =>
    cases o with
    | success a d => exact hnext a d
    | noSuccess r =>
      change Obeys K (if r.isFailure then otherwise r c else Dialogue.done (.noSuccess r))
      split
      · exact hotherwise r ‹_›
      · exact .done h
  | stop h => exact .stop h
  | ask hq _ ih => exact .ask hq ih

/-- Conducting oneself, as a relation that looks at one of its sides only. -/
def obedience (K : Conduct π ρ) :
    Simulation (Dialogue π ρ C) (Dialogue π ρ C) (.identity fun _ : C => True) where
  rel x _ := Obeys K x
  success _ _ _ _ := .done trivial
  failure _ hr := .done (Outcome.permitted_of_isFailure hr)
  branch hp hnext hotherwise := hp.branch (fun a d => hnext a d d ⟨rfl, trivial⟩)
    fun r hr => hotherwise r r (Correspondence.reason_identity.mpr rfl) hr

/-- Asking for a run that one may ask for is conduct. -/
theorem related_obeys_ask {scope : Scope π ρ} {q : Parser π ρ α} (hq : K.asks scope q)
    (origin : Origin) : (obedience K).Related (fun c : C => .ask scope origin q c .done)
      (fun c => .ask scope origin q c .done) :=
  fun _ _ _ => .ask hq fun _ ho => .done ho

end Dialogue

/-- Whether an environment lets everything that may be run go on so. -/
structure Conduct.KeptBy {π : Type → Type} {ρ : Type} (K : Conduct π ρ) (env : Environment π ρ) :
    Prop where
  part {α : Type} {scope : Scope π ρ} {p : Parser π ρ α} :
    K.asks scope p → p.isContextual = false → p.EachPart fun q => K.asks scope q
  abort {α : Type} {scope : Scope π ρ} {expected : String} :
    K.asks scope (.abort expected : Parser π ρ α) → K.errors expected
  recursive {scope : Scope π ρ} {name : String} {body : Parser π ρ ρ} (build : BuildId) :
    K.asks scope (.recursive name body) → K.asks ((name, .live build body) :: scope) body
  self {scope : Scope π ρ} {name : String} : K.asks scope (.self name) →
    match scope.startingAt name with
    | [] => K.errors "recursive parser used before its definition finished"
    | (_, .dropped) :: _ => K.errors "recursive parser used after it was dropped"
    | (_, .live build body) :: outer => K.asks ((name, .live build body) :: outer) body
  define {scope : Scope π ρ} {site : Nat} {name : String} :
    K.asks scope (.define site name) → K.asks [] (env.definition name)
  rule {scope : Scope π ρ} {r : Rule} : K.asks scope (.rule r) →
    match env.rule r.id with
    | .dropped => K.errors s!"rule `{r.name}` used after its grammar was dropped"
    | .unbound => K.stops (.unboundRule r.name)
    | .bound packrat _ body =>
      K.asks [] body ∧ (packrat = true → K.memos r.id ∧ K.errors "left recursion detected")

section Plan

open Dialogue

variable {π : Type → Type} {C T ρ α : Type} [Cursor C T] [Primitive π] [Primitive.Runs π C]
  [Primitive.Lawful π C] [Primitive.StopsInCharacters π C] {K : Conduct π ρ} {env : Environment π ρ}

omit [Primitive π] in
/-- A primitive parser conducts itself, by its laws. -/
theorem Dialogue.related_obeys_primitive (p : π α) :
    (obedience K).Related (fun c : C => ofExcept (Primitive.Runs.parse p c))
      (fun c => ofExcept (Primitive.Runs.parse p c)) := by
  intro c _ _
  change Obeys K (ofExcept (Primitive.Runs.parse p c))
  cases h : Primitive.Runs.parse p c with
  | error halt =>
    rw [Primitive.StopsInCharacters.eq_of_stop h]
    exact .stop K.stops_brokenCharacter
  | ok o =>
    cases o with
    | success a d => exact .done trivial
    | noSuccess r =>
      exact .done (Outcome.permitted_of_isFailure (Primitive.Lawful.isFailure_of_noSuccess h))

/-- What may be run conducts itself in its dialogue. -/
theorem Conduct.KeptBy.obeys_plan (hK : K.KeptBy env) {ctx : Context π ρ} {p : Parser π ρ α}
    (hp : K.asks ctx.scope p) (fuel : Nat) (c : C) : (p.plan env fuel ctx c).Obeys K := by
  have abort {β : Type} {expected : String} (h : K.errors expected) :
      (obedience K).Related (Recognizer.abort (C := C) (α := β) expected)
        (Recognizer.abort expected) := fun _ _ _ => .done fun _ => h
  have stop {β : Type} : (obedience K).Related (C := C) (α := β) (fun _ => halt .outOfFuel)
      (fun _ => halt .outOfFuel) := fun _ _ _ => .stop K.stops_outOfFuel
  -- one side is not looked at, so an expression is compared with itself
  suffices (obedience K).Related (p.plan env fuel ctx) (p.plan env fuel ctx) from
    this c c ⟨rfl, trivial⟩
  induction p using Parser.forms with
  | combination p hcombination =>
    have hcontext : p.isContextual = false := by
      cases p <;> first | rfl | cases hcombination
    have hparts := hK.part hp hcontext
    exact (obedience K).related_step hcombination
      (hparts.imp fun q hq origin => related_obeys_ask hq origin)
      (hparts.imp fun q hq => (obedience K).related_openEnded (related_obeys_ask hq .same) fuel
        (l := 0) stop)
  | contextual p hcontext =>
    cases p with
    | recursive name body => exact related_obeys_ask (hK.recursive ctx.build hp) .same
    | self name =>
      have hself := hK.self hp
      rw [Parser.plan, Parser.step_self]
      rcases hstart : ctx.scope.startingAt name with _ | ⟨⟨label, _ | _⟩, outer⟩
      all_goals rw [hstart] at hself
      · exact abort hself
      · exact related_obeys_ask hself _
      · exact abort hself
    | define site name => exact related_obeys_ask (hK.define hp) _
    | rule r =>
      have hrule := hK.rule hp
      rw [Parser.plan, Parser.step_rule]
      cases hbinding : env.rule r.id
      all_goals rw [hbinding] at hrule
      · exact abort hrule
      · exact fun _ _ _ => .stop hrule
      · exact related_obeys_ask hrule.1 _
    | _ => cases hcontext
  | primitive x => exact related_obeys_primitive x
  | abort expected => exact abort (hK.abort hp)
  | joined element separator =>
    obtain ⟨helement, hseparator⟩ := hK.part hp rfl
    exact (obedience K).related_joined (related_obeys_ask helement .same)
      ((obedience K).related_pairs (related_obeys_ask helement .same)
        (related_obeys_ask hseparator .same) fuel (l := 0) stop)
  | withSpan p =>
    exact (obedience K).related_withSpan (related_obeys_ask (hK.part hp rfl) .same)
      Correspondence.between_eq_of_identity

end Plan

/-! ## Runs -/

/-- Whether a run conducts itself while it keeps a condition on its state. -/
abbrev Conduct.Guides {π : Type → Type} {ρ σ C α : Type} (K : Conduct π ρ) (P : σ → Prop) :
    Effect σ (Outcome C α) → Prop :=
  Abides P (·.Permitted K.errors) fun halt s => K.stops halt ∧ P s

/-- The run of a dialogue that conducts itself is guided if the answers are. -/
theorem Dialogue.Obeys.guides {π : Type → Type} {C T ρ σ α : Type} [Cursor C T] {K : Conduct π ρ}
    {P : σ → Prop}
    {answer : {β : Type} → Scope π ρ → Origin → Parser π ρ β → Recognizer (Effect σ) C β}
    (h : ∀ {β : Type} {scope origin} {q : Parser π ρ β} {c : C}, K.asks scope q →
      K.Guides P (answer scope origin q c))
    {x : Dialogue π ρ C (Outcome C α)} (hx : x.Obeys K) : K.Guides P (x.run answer) := by
  induction hx with
  | done ho => exact .pure ho
  | stop hstop => exact .halt fun _ hs => ⟨hstop, hs⟩
  | ask hq _ ih => exact (h hq).bind ih

section Runs

variable {π : Type → Type} {C T ρ α : Type} [Cursor C T] {K : Conduct π ρ} {env : Environment π ρ}
  {r : RuleId} {c : C}

/-- Whether rules remember permitted outcomes only. -/
def Conduct.Remembered (K : Conduct π ρ) (s : Session C ρ) : Prop :=
  ∀ r, K.memos r → ∀ key o, s.lookup r key = some (.resolved o) → o.Permitted K.errors

omit [Cursor C T] in
/-- Rules that know less remember permitted outcomes only. -/
theorem Conduct.Remembered.of_lookup {s t : Session C ρ} (h : K.Remembered s)
    (hst : ∀ {r key e}, K.memos r → t.lookup r key = some e → s.lookup r key = some e) :
    K.Remembered t :=
  fun r hr key o ht => h r hr key o (hst hr ht)

omit [Cursor C T] in
/-- What is remembered depends on the memos of a session only. -/
theorem Conduct.Remembered.of_memos {s t : Session C ρ} (h : K.Remembered s)
    (hst : t.memos = s.memos) : K.Remembered t :=
  h.of_lookup fun _ ht => (Session.lookup_congr hst).symm.trans ht

omit [Cursor C T] in
/-- A call lets no rule remember an outcome. -/
theorem Conduct.Remembered.call {s : Session C ρ} (h : K.Remembered s) (r : RuleId)
    (key : MemoKey) : K.Remembered (s.call r key).2 := by
  intro r' hr' key' o ht
  rcases Session.eq_or_lookup_of_call ht with ⟨rfl, rfl, ho⟩ | ⟨-, hs⟩
  · -- what the rule itself knows is what it knew before, or that it is at work
    rcases hentry : s.lookup r' key' with _ | e
    · rw [hentry] at ho
      cases ho
    · rw [hentry, Option.getD_some] at ho
      exact h r' hr' key' o (hentry.trans (congrArg some ho.symm))
  · exact h r' hr' key' o hs

omit [Cursor C T] in
/-- A permitted outcome may be remembered. -/
theorem Conduct.Remembered.resolveCall {s : Session C ρ} (h : K.Remembered s) {key : MemoKey}
    {o : Outcome C ρ} (ho : o.Permitted K.errors) : K.Remembered (s.resolveCall r key o) := by
  intro r' hr' key' o' ht
  rcases Session.eq_or_lookup_of_resolveCall ht with ⟨-, -, heq⟩ | ⟨-, hs⟩
  · cases heq
    exact ho
  · exact h r' hr' key' o' hs

variable [Primitive π] [Primitive.Runs π C] [Primitive.Lawful π C] [Primitive.StopsInCharacters π C]

/-- Whatever may be run conducts itself, from sessions in which rules remember permitted outcomes
only; and they remember no others afterwards, however the run ends. -/
theorem Parser.eval_guides (hK : K.KeptBy env) (fuel : Nat) (ctx : Context π ρ)
    {p : Parser π ρ α} (hp : K.asks ctx.scope p) (c : C) :
    K.Guides K.Remembered (p.eval env fuel ctx c) := by
  -- All that is asked for runs within a lesser bound, in a scope of its own.
  induction fuel generalizing α ctx c with
  | zero => exact .halt fun _ hs => ⟨K.stops_outOfFuel, hs⟩
  | succ n ih =>
    have below : K.Guides K.Remembered ((p.plan env n ctx c).run (answer env n ctx.build)) := by
      refine (hK.obeys_plan hp n c).guides fun {β scope origin q d} hq => ?_
      exact .update_bind (fun s hs => hs.of_memos (s.memos_enter _ _))
        fun build => ih ⟨scope, build⟩ hq d
    rw [eval_succ]
    refine .attend (fun s _ hs => hs.of_memos rfl) (fun hrule => ?_) below
    cases p with
    | rule r =>
      have hasks := hK.rule hp
      rw [attend_rule]
      split
      · rename_i hbound
        rw [hbound] at hasks
        obtain ⟨hmemo, hleft⟩ := hasks.2 rfl
        exact .memoized (fun s hs => hs.call r.id _) (fun s o hs ho => hs.resolveCall ho)
          (fun s o hs hentry => hs r.id hmemo _ o hentry) (fun _ => hleft) below
      · exact below
    | _ => cases hrule

end Runs

end Parsing
