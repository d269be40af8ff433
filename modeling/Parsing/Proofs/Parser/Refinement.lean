import Parsing.Proofs.Parser.Dialogue

/-!
# Bounds and builds

How deep a run may be and in which builds expressions stand decides neither what an expression asks
for nor what it makes of the answers, except that a run may reach its bound: `Dialogue.Refines` says
so of two dialogues. For whole runs it follows that with a greater bound, in another build and with
other counts the outcome is the same, and so is what the rules know afterwards (`eval_follows`).
-/

namespace Parsing

open Recognizer

universe u v

/-! ## Scopes -/

section Scopes

variable {π : Type → Type} {ρ : Type}

/-- The parser behind a handle, if there still is one. -/
def Handle.body? : Handle π ρ → Option (Parser π ρ ρ)
  | .live _ body => some body
  | .dropped => none

/-- What the names in a scope stand for, apart from builds. -/
def Scope.bodies (scope : Scope π ρ) : List (String × Option (Parser π ρ ρ)) :=
  scope.map fun entry => (entry.1, entry.2.body?)

/-- Looking a name up in a scope goes by names, not by builds. -/
theorem Scope.bodies_startingAt (scope : Scope π ρ) (name : String) :
    (scope.startingAt name).bodies = scope.bodies.dropWhile fun entry => entry.1 != name := by
  induction scope with
  | nil => rfl
  | cons entry scope ih =>
    rw [Scope.startingAt, List.dropWhile_cons]
    change _ = List.dropWhile _ ((entry.1, entry.2.body?) :: Scope.bodies scope)
    rw [List.dropWhile_cons]
    split
    · exact ih
    · rfl

end Scopes

/-- Where two scopes differ in builds only, a name stands for the same parser in both or in
neither. -/
theorem Simulation.related_self {m : Type → Type u} {n : Type → Type v} [Monad m] [Monad n]
    [Halting m] [Halting n] {π : Type → Type} {C D T U ρ : Type} [Cursor C T] [Cursor D U]
    [Primitive π] [Primitive.Runs π C] [Primitive.Runs π D] {K : Correspondence C D}
    (S : Simulation m n K) {env env' : Environment π ρ} {fuel fuel' : Nat}
    {run : {β : Type} → Scope π ρ → Origin → Parser π ρ β → Recognizer m C β}
    {run' : {β : Type} → Scope π ρ → Origin → Parser π ρ β → Recognizer n D β}
    {ctx ctx' : Context π ρ} (hscope : ctx.scope.bodies = ctx'.scope.bodies) (name : String)
    (abort : ∀ expected, S.Related (Recognizer.abort (α := ρ) expected)
      (Recognizer.abort expected))
    (ask : ∀ {label build build' body} {outer outer' : Scope π ρ},
      ((label, .live build body) :: outer) <:+ ctx.scope → outer.bodies = outer'.bodies →
        S.Related (run ((name, .live build body) :: outer) (.known build) body)
          (run' ((name, .live build' body) :: outer') (.known build') body)) :
    S.Related ((Parser.self name).step env fuel run ctx)
      ((Parser.self name).step env' fuel' run' ctx') := by
  have hstart : (ctx.scope.startingAt name).bodies = (ctx'.scope.startingAt name).bodies := by
    rw [Scope.bodies_startingAt, Scope.bodies_startingAt, hscope]
  have hsuffix : ctx.scope.startingAt name <:+ ctx.scope := List.dropWhile_suffix _
  rw [Parser.step_self, Parser.step_self]
  -- the name is in both scopes or in neither, with the same parser behind it
  rcases hs : ctx.scope.startingAt name with _ | ⟨⟨label, handle⟩, outer⟩ <;>
    rcases hs' : ctx'.scope.startingAt name with _ | ⟨⟨label', handle'⟩, outer'⟩ <;>
    rw [hs, hs'] at hstart
  · exact abort _
  · cases hstart
  · cases hstart
  · rw [hs] at hsuffix
    obtain ⟨hhead, houter⟩ := List.cons.inj hstart
    have hbody : handle.body? = handle'.body? := congrArg Prod.snd hhead
    cases handle <;> cases handle' <;> cases hbody
    · exact ask hsuffix houter
    · exact abort _

/-! ## Dialogues -/

namespace Dialogue

variable {π : Type → Type} {C ρ α β : Type}

/-- Whether a dialogue goes like another one until it reaches its bound. -/
inductive Refines : Dialogue π ρ C α → Dialogue π ρ C α → Prop where
  | done (a : α) : Refines (.done a) (.done a)
  | outOfFuel (y : Dialogue π ρ C α) : Refines (.stop .outOfFuel) y
  | stop (h : Halt) : Refines (.stop h) (.stop h)
  | ask {β : Type} {scope scope' : Scope π ρ} {origin origin' : Origin} {q : Parser π ρ β} {c : C}
    {next next' : Outcome C β → Dialogue π ρ C α} (hscope : scope.bodies = scope'.bodies)
    (hnext : ∀ o, Refines (next o) (next' o)) :
    Refines (.ask scope origin q c next) (.ask scope' origin' q c next')

/-- A dialogue goes like itself. -/
theorem Refines.refl (x : Dialogue π ρ C α) : Refines x x := by
  induction x with
  | done a => exact .done a
  | stop h => exact .stop h
  | ask scope origin q c next ih => exact .ask rfl ih

/-- Dialogues in sequence go like those that they refine. -/
theorem Refines.bind {x y : Dialogue π ρ C α} {f g : α → Dialogue π ρ C β} (hxy : Refines x y)
    (hfg : ∀ a, Refines (f a) (g a)) : Refines (x >>= f) (y >>= g) := by
  induction hxy with
  | done a => exact hfg a
  | outOfFuel y => exact .outOfFuel _
  | stop h => exact .stop h
  | ask hscope _ ih => exact .ask hscope ih

/-- Refinement, as a relation between recognizers. -/
def refinement {T : Type} [Cursor C T] : Simulation (Dialogue π ρ C) (Dialogue π ρ C)
    (.identity fun _ : C => True) where
  rel := Refines
  success := by
    rintro _ a c _ ⟨rfl, -⟩
    exact .done _
  failure := by
    intro _ r r' hr _
    rw [Correspondence.reason_identity.mp hr]
    exact .done _
  branch := by
    intro _ _ p p' next next' otherwise otherwise' c d hp hnext hotherwise
    refine hp.bind fun o => ?_
    cases o with
    | success a e => exact hnext a e e ⟨rfl, trivial⟩
    | noSuccess r =>
      by_cases hr : r.isFailure
      · simp only [hr, if_true]
        exact hotherwise r r (Correspondence.reason_identity.mpr rfl) hr
      · simp only [hr]
        exact .done _

end Dialogue

namespace Parser

variable {π : Type → Type} {C T ρ α : Type} [Cursor C T] {ctx ctx' : Context π ρ}

/-- Asking in a scope with the same bodies is asking for the same. -/
theorem refines_ask {scope scope' : Scope π ρ} (hscope : scope.bodies = scope'.bodies)
    (origin origin' : Origin) (q : Parser π ρ α) :
    Dialogue.refinement.Related (fun c : C => .ask scope origin q c .done)
      (fun c => .ask scope' origin' q c .done) := by
  rintro c _ ⟨rfl, -⟩
  exact .ask hscope .done

/-- Aborts go alike. -/
theorem refines_abort (expected : String) :
    (Dialogue.refinement (π := π) (ρ := ρ)).Related (Recognizer.abort (C := C) (α := α) expected)
      (Recognizer.abort expected) := by
  rintro c _ ⟨rfl, -⟩
  exact .done _

variable [Primitive π] [Primitive.Runs π C]

/-- With a greater bound, in a context that differs in builds only, an expression goes on as it
did. -/
theorem refines_plan (env : Environment π ρ) {fuel fuel' : Nat} (hfuel : fuel ≤ fuel')
    (hscope : ctx.scope.bodies = ctx'.scope.bodies) (p : Parser π ρ α) (c : C) :
    (p.plan env fuel ctx c).Refines (p.plan env fuel' ctx' c) := by
  suffices Dialogue.refinement.Related (p.plan env fuel ctx) (p.plan env fuel' ctx') from
    this c c ⟨rfl, trivial⟩
  refine Dialogue.refinement.related_step_of_identity hfuel
    (fun q origin => refines_ask hscope origin origin q) ?_ ?_ refines_abort fun y _ => .outOfFuel y
  · intro hp
    cases p with
    | recursive name body =>
      refine refines_ask ?_ .same .same body
      exact congrArg (List.cons _) hscope
    | self name =>
      refine Dialogue.refinement.related_self hscope name refines_abort fun _ houter => ?_
      refine refines_ask ?_ _ _ _
      exact congrArg (List.cons _) houter
    | define site name => exact refines_ask rfl _ _ _
    | rule r =>
      rw [step_rule, step_rule]
      split
      · exact refines_abort _
      · exact fun _ _ _ => .stop _
      · exact refines_ask rfl _ _ _
    | _ => cases hp
  · rintro β q c _ ⟨rfl, -⟩
    change Dialogue.Refines (ofExcept (Primitive.Runs.parse q c))
      (ofExcept (Primitive.Runs.parse q c))
    cases Primitive.Runs.parse q c with
    | error h => exact .stop h
    | ok o => exact .done o

end Parser

/-! ## Runs -/

/-- Whether one run comes to whatever value another one comes to, a relation between their states is
kept, and the value satisfies a condition. -/
def Follows {σ τ α : Type} (S : σ → τ → Prop) (V : α → Prop) (x : Effect σ α) (y : Effect τ α) :
    Prop :=
  ∀ s t, S s t → ∀ a s', x.run s = (.ok a, s') → ∃ t', y.run t = (.ok a, t') ∧ S s' t' ∧ V a

namespace Follows

variable {σ τ α β : Type} {S : σ → τ → Prop} {V : α → Prop} {W : β → Prop}

/-- A value that satisfies the condition may be returned on both sides. -/
theorem pure {a : α} (h : V a) : Follows S V (Pure.pure a) (Pure.pure a) := by
  intro s t hst _ _ hrun
  cases hrun
  exact ⟨t, rfl, hst, h⟩

/-- A run that stops comes to no value that would have to be followed. -/
theorem halt (h : Halt) (y : Effect τ α) : Follows S V (Parsing.halt h) y := by
  intro s t hst _ _ hrun
  cases hrun

/-- The condition on the value may be weakened. -/
theorem imp {x : Effect σ α} {y : Effect τ α} {W : α → Prop} (h : Follows S V x y)
    (hVW : ∀ a, V a → W a) : Follows S W x y := by
  intro s t hst a s' hrun
  obtain ⟨t', hy, hst', ha⟩ := h s t hst a s' hrun
  exact ⟨t', hy, hst', hVW a ha⟩

/-- Runs in sequence are followed in sequence. -/
theorem bind {x : Effect σ α} {y : Effect τ α} {f : α → Effect σ β} {g : α → Effect τ β}
    (hxy : Follows S V x y) (hfg : ∀ a, V a → Follows S W (f a) (g a)) :
    Follows S W (x >>= f) (y >>= g) := by
  intro s t hst b s' h
  rw [Effect.run_bind] at h
  rcases hx : x.run s with ⟨_ | a, s₁⟩
  all_goals rw [hx] at h
  · cases h
  · obtain ⟨t₁, hy, hst₁, ha⟩ := hxy s t hst a s₁ hx
    obtain ⟨t', hg, hst', hb⟩ := hfg a ha s₁ t₁ hst₁ b s' h
    refine ⟨t', ?_, hst', hb⟩
    rw [Effect.run_bind, hy]
    exact hg

/-- Changes of the state that keep the relation give the same on both sides. -/
theorem update {f : σ → α × σ} {g : τ → α × τ}
    (h : ∀ s t, S s t → (f s).1 = (g t).1 ∧ S (f s).2 (g t).2) :
    Follows S (fun _ => True) (Parsing.update f) (Parsing.update g) := by
  intro s t hst a s' hrun
  cases hrun
  obtain ⟨heq, hst'⟩ := h s t hst
  exact ⟨(g t).2, by rw [Effect.run_update, heq], hst', trivial⟩

/-- Two changes of state may give different values, if what comes after does not depend on them. -/
theorem update_bind {γ δ : Type} {f : σ → γ × σ} {g : τ → δ × τ} {x : γ → Effect σ α}
    {y : δ → Effect τ α} (h : ∀ s t, S s t → S (f s).2 (g t).2)
    (hxy : ∀ c d, Follows S V (x c) (y d)) :
    Follows S V (Parsing.update f >>= x) (Parsing.update g >>= y) :=
  fun s t hst a s' hrun => hxy _ _ (f s).2 (g t).2 (h s t hst) a s' hrun

end Follows

section Runs

variable {π : Type → Type} {C T ρ σ τ α : Type}

/-- Held with answers that are followed, a dialogue is followed by those that it refines. -/
theorem Dialogue.Refines.follows {S : σ → τ → Prop}
    {answer : {β : Type} → Scope π ρ → Origin → Parser π ρ β → Recognizer (Effect σ) C β}
    {answer' : {β : Type} → Scope π ρ → Origin → Parser π ρ β → Recognizer (Effect τ) C β}
    (h : ∀ {β : Type} {scope scope' : Scope π ρ} {origin origin'} {q : Parser π ρ β} {c : C},
      scope.bodies = scope'.bodies →
        Follows S (fun _ => True) (answer scope origin q c) (answer' scope' origin' q c))
    {x y : Dialogue π ρ C α} (hxy : x.Refines y) :
    Follows S (fun _ => True) (x.run answer) (y.run answer') := by
  induction hxy with
  | done a => exact .pure trivial
  | outOfFuel y => exact .halt _ _
  | stop halt => exact .halt _ _
  | ask hscope _ ih => exact (h hscope).bind fun o _ => ih o

variable [Cursor C T] {env env' : Environment π ρ}

/-- Keeping the books on related runs, if counting keeps the relation. What is done about rules is
another matter. -/
theorem Follows.attend {S : Session C ρ → Session C ρ → Prop} {V : Outcome C α → Prop}
    {q q' : Recognizer (Effect (Session C ρ)) C α} {p : Parser π ρ α} {c : C}
    (tally : ∀ {s t} name, S s t → S (s.tally name) (t.tally name))
    (rule : p.isRule = true → Follows S V (p.attend env q c) (p.attend env' q' c))
    (h : Follows S V (q c) (q' c)) : Follows S V (p.attend env q c) (p.attend env' q' c) := by
  induction p using Parser.books with
  | none p hp =>
    rw [Parser.attend_eq_self hp, Parser.attend_eq_self hp]
    exact h
  | tally name p =>
    rw [Parser.attend_tally, Parser.attend_tally]
    refine h.bind fun o ho => ?_
    cases o with
    | success a rest => exact .update_bind (fun s t hst => tally name hst) fun _ _ => .pure ho
    | noSuccess r => exact .pure ho
  | rule r => exact rule rfl

variable [Primitive π] [Primitive.Runs π C]

/-- A run that comes to an outcome comes to the same one with a greater bound and in a context that
differs in builds only, from any session that is related to its own, if the relation does not mind
the books that are kept. -/
theorem Parser.eval_follows_of {S : Session C ρ → Session C ρ → Prop}
    (enter : ∀ {s t} build build' origin origin',
      S s t → S (s.enter build origin).2 (t.enter build' origin').2)
    (attend : ∀ {β : Type} {q q' : Recognizer (Effect (Session C ρ)) C β} (p : Parser π ρ β) c,
      Follows S (fun _ => True) (q c) (q' c) →
        Follows S (fun _ => True) (p.attend env q c) (p.attend env q' c))
    {fuel fuel' : Nat} (hfuel : fuel ≤ fuel') {ctx ctx' : Context π ρ}
    (hscope : ctx.scope.bodies = ctx'.scope.bodies) (p : Parser π ρ α) (c : C) :
    Follows S (fun _ => True) (p.eval env fuel ctx c) (p.eval env fuel' ctx' c) := by
  induction fuel generalizing α fuel' ctx ctx' c with
  | zero => exact .halt _ _
  | succ n ih =>
    obtain ⟨m, rfl⟩ := Nat.exists_eq_add_of_le hfuel
    have hsucc : n + 1 + m = n + m + 1 := by omega
    rw [hsucc, eval_succ, eval_succ]
    refine attend p c ?_
    refine Dialogue.Refines.follows (fun hscope' => ?_)
      (refines_plan env (Nat.le_add_right n m) hscope p c)
    exact .update_bind (fun s t hst => enter _ _ _ _ hst)
      fun _ _ => ih (Nat.le_add_right n m) hscope' _ _

/-! ### Sessions in which the rules know the same -/

/-- Whether the rules know the same in two sessions. -/
def Session.SameMemos (s t : Session C ρ) : Prop :=
  s.memos = t.memos

omit [Cursor C T] in
/-- A call gives the same where rules know the same, and leaves them knowing the same. -/
theorem Session.SameMemos.call {s t : Session C ρ} (h : s.SameMemos t) (r : RuleId)
    (key : MemoKey) : (s.call r key).1 = (t.call r key).1 ∧
      (s.call r key).2.SameMemos (t.call r key).2 := by
  unfold SameMemos at h ⊢
  simp only [Session.call, Session.lookup, Session.memo, Session.setMemo, h]
  exact ⟨trivial, rfl⟩

omit [Cursor C T] in
/-- Resolving a call leaves rules that know the same knowing the same. -/
theorem Session.SameMemos.resolveCall {s t : Session C ρ} (h : s.SameMemos t) (r : RuleId)
    (key : MemoKey) (o : Outcome C ρ) :
    (s.resolveCall r key o).SameMemos (t.resolveCall r key o) := by
  unfold SameMemos at h ⊢
  simp only [Session.resolveCall, Session.memo, Session.setMemo, h]

omit [Cursor C T] in
/-- Entering a run changes nothing for what rules know. -/
theorem Session.SameMemos.enter {s t : Session C ρ} (h : s.SameMemos t) (build build' : BuildId)
    (origin origin' : Origin) :
    (s.enter build origin).2.SameMemos (t.enter build' origin').2 := by
  rw [SameMemos, memos_enter, memos_enter]
  exact h

omit [Primitive π] [Primitive.Runs π C] in
/-- Keeping the books on related runs, if the same rules keep memos and know the same in related
sessions. -/
theorem Follows.attend_self {S : Session C ρ → Session C ρ → Prop}
    (tally : ∀ {s t} name, S s t → S (s.tally name) (t.tally name))
    (call : ∀ {s t} r key, S s t →
      (s.call r key).1 = (t.call r key).1 ∧ S (s.call r key).2 (t.call r key).2)
    (resolve : ∀ {s t} r key o, S s t → S (s.resolveCall r key o) (t.resolveCall r key o))
    {q q' : Recognizer (Effect (Session C ρ)) C α} (p : Parser π ρ α) (c : C)
    (h : Follows S (fun _ => True) (q c) (q' c)) :
    Follows S (fun _ => True) (p.attend env q c) (p.attend env q' c) := by
  refine Follows.attend tally (fun hp => ?_) h
  cases p with
  | rule r =>
    rw [Parser.attend_rule, Parser.attend_rule]
    split
    · refine (Follows.update fun s t hst => call r.id _ hst).bind fun entry _ => ?_
      rcases entry with _ | _ | outcome
      · exact h.bind fun o _ =>
          .update_bind (fun s t hst => resolve _ _ o hst) fun _ _ => .pure trivial
      · exact .pure trivial
      · exact .pure trivial
    · exact h
  | _ => cases hp

omit [Primitive π] [Primitive.Runs π C] in
/-- The books are kept in the same way where rules know the same. -/
theorem Follows.attend_sameMemos {q q' : Recognizer (Effect (Session C ρ)) C α}
    (p : Parser π ρ α) (c : C) (h : Follows Session.SameMemos (fun _ => True) (q c) (q' c)) :
    Follows Session.SameMemos (fun _ => True) (p.attend env q c) (p.attend env q' c) :=
  .attend_self (fun _ hst => hst) (fun r key hst => hst.call r key)
    (fun r key o hst => hst.resolveCall r key o) p c h

/-- A run that comes to an outcome comes to the same one with a greater bound, in a context that
differs in builds only and from a session in which the rules know the same; and they know the same
afterwards. -/
theorem Parser.eval_follows (env : Environment π ρ) {fuel fuel' : Nat} (hfuel : fuel ≤ fuel')
    {ctx ctx' : Context π ρ} (hscope : ctx.scope.bodies = ctx'.scope.bodies) (p : Parser π ρ α)
    (c : C) :
    Follows Session.SameMemos (fun _ => True) (p.eval env fuel ctx c) (p.eval env fuel' ctx' c) :=
  eval_follows_of (fun _ _ _ _ hst => hst.enter _ _ _ _) Follows.attend_sameMemos hfuel hscope p c

/-- Answers to questions with the same bodies follow each other. -/
theorem Parser.answer_follows (env : Environment π ρ) {fuel fuel' : Nat} (hfuel : fuel ≤ fuel')
    (build build' : BuildId) {scope scope' : Scope π ρ} (hscope : scope.bodies = scope'.bodies)
    (origin origin' : Origin) (q : Parser π ρ α) (c : C) :
    Follows Session.SameMemos (fun _ => True) (answer env fuel build scope origin q c)
      (answer env fuel' build' scope' origin' q c) :=
  .update_bind (fun _ _ hst => hst.enter _ _ _ _) fun _ _ => eval_follows env hfuel hscope q c

/-- The same of dialogues: a greater bound and other builds change nothing. -/
theorem Dialogue.Refines.follows_answer (env : Environment π ρ) {fuel fuel' : Nat}
    (hfuel : fuel ≤ fuel') (build build' : BuildId) {x y : Dialogue π ρ C α} (hxy : x.Refines y) :
    Follows Session.SameMemos (fun _ => True) (x.run (Parser.answer env fuel build))
      (y.run (Parser.answer env fuel' build')) :=
  hxy.follows fun hscope => Parser.answer_follows env hfuel build build' hscope _ _ _ _

/-- One bound is great enough for the dialogue of an expression and for the runs below. -/
theorem Parser.exists_run_plan {n m : Nat} {ctx : Context π ρ} {p : Parser π ρ α} {c : C}
    {s s' : Session C ρ} {o : Outcome C α}
    (h : ((p.plan env n ctx c).run (answer env m ctx.build)).run s = (.ok o, s')) :
    ∃ k t, ((p.plan env k ctx c).run (answer env k ctx.build)).run s = (.ok o, t) := by
  obtain ⟨t, ht, -⟩ := (refines_plan env (Nat.le_max_left n m) rfl p c).follows_answer env
    (Nat.le_max_right n m) ctx.build ctx.build s s rfl o s' h
  exact ⟨max n m, t, ht⟩

/-- A dialogue comes to an end if what it asks for does and then the rest of it. The greater of the
two bounds is great enough for both. -/
theorem Dialogue.exists_run_ask {scope : Scope π ρ} {origin : Origin} {q : Parser π ρ α} {c : C}
    {β : Type} {next : Outcome C α → Dialogue π ρ C β} {build : BuildId} {n m : Nat}
    {s s₁ t : Session C ρ} {o : Outcome C α} {b : β}
    (hanswer : (Parser.answer env n build scope origin q c).run s = (.ok o, s₁))
    (hnext : ((next o).run (Parser.answer env m build)).run s₁ = (.ok b, t)) :
    ∃ k t', ((ask scope origin q c next).run (Parser.answer env k build)).run s = (.ok b, t') := by
  -- with the greater bound the first run leaves a state that differs in builds at most
  obtain ⟨s₂, hanswer', hmemos, -⟩ := Parser.answer_follows env (Nat.le_max_left n m) build build
    rfl origin origin q c s s rfl o s₁ hanswer
  obtain ⟨t', hnext', -⟩ := (Refines.refl (next o)).follows_answer env (Nat.le_max_right n m) build
    build s₁ s₂ hmemos b t hnext
  refine ⟨max n m, t', ?_⟩
  rw [Dialogue.run, Effect.run_bind, hanswer']
  exact hnext'

end Runs

end Parsing
