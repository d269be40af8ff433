import Parsing.Proofs.Cursor.Pairing
import Parsing.Proofs.Parser.Memo
import Parsing.Proofs.Parser.Refinement

/-!
# Runs in lockstep

The same expression, run at two cursors of a `Pairing`, does the same on both sides: it stops for
the same reason, or it comes to outcomes that differ in the input only, of which each leaves a
cursor, or reports a location, that is equally many tokens ahead (`Outcome.Lockstep`). This asks of
the primitive parsers in the expression that they do so, and of a parser for spans that the spans on
both sides are equal (`Pairing.Suits`).

Dialogues go in lockstep as long as the answers do (`lockstep_plan`). Rules answer in lockstep,
since what they remember of paired cursors are outcomes in lockstep as well (`Session.Lockstep`);
and so do whole runs (`eval_tandem`).
-/

namespace Parsing

open Recognizer Cursor

/-! ## Outcomes -/

section Outcomes

variable {C D T α : Type} [Cursor C T] [Cursor D T] {c e : C} {d f : D}

/-- Two outcomes that are alike, up to the cursors at which they were come to. -/
inductive Outcome.Lockstep (c : C) (d : D) : Outcome C α → Outcome D α → Prop where
  | success (a : α) {e : C} {f : D} :
    InStep c d e f → Lockstep c d (.success a e) (.success a f)
  | noSuccess {r r' : NoSuccess} {e : C} {f : D} : r.severity = r'.severity →
    r.expected = r'.expected → InStep c d e f → r.location = Cursor.location e →
    r'.location = Cursor.location f → Lockstep c d (.noSuccess r) (.noSuccess r')

/-- Outcomes that are alike behind steps in step are alike from the start. -/
theorem Outcome.Lockstep.trans {o : Outcome C α} {o' : Outcome D α} (h : InStep c d e f)
    (ho : o.Lockstep e f o') : o.Lockstep c d o' := by
  cases ho with
  | success a hstep => exact .success a (h.trans hstep)
  | noSuccess hseverity hexpected hstep hl hl' =>
    exact .noSuccess hseverity hexpected (h.trans hstep) hl hl'

/-- A report of where a parser stands. -/
theorem Outcome.lockstep_report (severity : Severity) (expected : String) (c : C) (d : D) :
    (noSuccess ⟨severity, expected, Cursor.location c⟩ : Outcome C α).Lockstep c d
      (.noSuccess ⟨severity, expected, Cursor.location d⟩) :=
  .noSuccess rfl rfl (.refl c d) rfl rfl

end Outcomes

/-- Whether two runs ended alike: for the same reason, or with values that are related. -/
inductive Ends {α β : Type} (V : α → β → Prop) : Except Halt α → Except Halt β → Prop where
  | value {a : α} {b : β} : V a b → Ends V (.ok a) (.ok b)
  | halt (h : Halt) : Ends V (.error h) (.error h)

/-! ## What expressions are asked -/

section Conditions

variable {π : Type → Type} {C D T ρ α : Type} [Cursor C T] [Cursor D T] [Primitive.Runs π C]
  [Primitive.Runs π D] (K : Pairing C D)

/-- Whether a primitive parser goes in lockstep. -/
def Pairing.Agrees (x : π α) : Prop :=
  ∀ c d, K.paired c d →
    Ends (Outcome.Lockstep c d) (Primitive.Runs.parse x c) (Primitive.Runs.parse x d)

/-- Whether stretches of input look the same from both sides. -/
def Pairing.SameSpans : Prop :=
  ∀ {c d c' d'}, K.paired c d → K.paired c' d' → Span.between c c' = Span.between d d'

/-- Whether an expression goes in lockstep if its parts do. -/
def Pairing.Suits : Parser π ρ α → Prop
  | .primitive x => K.Agrees x
  | .withSpan _ => K.SameSpans
  | _ => True

/-- Whether a condition holds of all that names stand for. -/
structure Environment.All (P : ∀ {β : Type}, Parser π ρ β → Prop) (env : Environment π ρ) :
    Prop where
  rule {r : RuleId} {packrat : Bool} {build : BuildId} {body : Parser π ρ ρ} :
    env.rule r = .bound packrat build body → body.All P
  definition (name : String) : (env.definition name).All P

/-- A condition on all that names stand for may be weakened. -/
theorem Environment.All.imp {P Q : ∀ {β : Type}, Parser π ρ β → Prop} {env : Environment π ρ}
    (h : env.All P) (hPQ : ∀ {β : Type} (q : Parser π ρ β), P q → Q q) : env.All Q :=
  ⟨fun hbound => (h.rule hbound).imp hPQ, fun name => (h.definition name).imp hPQ⟩

/-- Whether a condition holds of the parsers around a place. -/
def Scope.All (P : ∀ {β : Type}, Parser π ρ β → Prop) (scope : Scope π ρ) : Prop :=
  ∀ label build body, (label, .live build body) ∈ scope → body.All P

section

variable {P : ∀ {β : Type}, Parser π ρ β → Prop} {scope outer : Scope π ρ}

/-- Nothing is around a place outside of all recursive parsers. -/
theorem Scope.all_nil : Scope.All P ([] : Scope π ρ) :=
  fun _ _ _ h => absurd h List.not_mem_nil

/-- One more parser may be around a place. -/
theorem Scope.All.cons (h : scope.All P) {name : String} {build : BuildId} {body : Parser π ρ ρ}
    (hbody : body.All P) : Scope.All P ((name, .live build body) :: scope) := by
  intro label build' body' hmem
  rcases List.mem_cons.mp hmem with heq | hmem
  · cases heq
    exact hbody
  · exact h label build' body' hmem

/-- A condition on the parsers around a place may be weakened. -/
theorem Scope.All.imp {Q : ∀ {β : Type}, Parser π ρ β → Prop} (h : scope.All P)
    (hPQ : ∀ {β : Type} (q : Parser π ρ β), P q → Q q) : scope.All Q :=
  fun label build body hmem => (h label build body hmem).imp hPQ

/-- Fewer parsers may be around a place. -/
theorem Scope.All.of_suffix (h : scope.All P) (hsuffix : outer <:+ scope) : outer.All P :=
  fun label build body hmem => h label build body (hsuffix.mem hmem)

/-- A condition on the parsers around a place is one on the parser that a name stands for, and on
those around it. -/
theorem Scope.All.of_startingAt (h : scope.All P) {name label : String} {build : BuildId}
    {body : Parser π ρ ρ} (hstart : scope.startingAt name = (label, .live build body) :: outer) :
    Scope.All P ((name, .live build body) :: outer) ∧ body.All P := by
  have hsuffix : (label, .live build body) :: outer <:+ scope := hstart ▸ List.dropWhile_suffix _
  have hbody := h label build body (hsuffix.mem List.mem_cons_self)
  exact ⟨(h.of_suffix ((List.suffix_cons _ _).trans hsuffix)).cons hbody, hbody⟩

end

end Conditions

/-! ## Dialogues -/

namespace Dialogue

variable {π : Type → Type} {C D T ρ α : Type} [Cursor C T] [Cursor D T] [Primitive.Runs π C]
  [Primitive.Runs π D] {K : Pairing C D} {c e : C} {d f : D}

/-- Whether two dialogues ask for the same runs ahead of two cursors, of suitable expressions only,
and go on in lockstep as long as the answers do. -/
inductive Lockstep (K : Pairing C D) (c : C) (d : D) :
    Dialogue π ρ C (Outcome C α) → Dialogue π ρ D (Outcome D α) → Prop where
  | done {o : Outcome C α} {o' : Outcome D α} :
    o.Lockstep c d o' → Lockstep K c d (.done o) (.done o')
  | stop (h : Halt) : Lockstep K c d (.stop h) (.stop h)
  | ask {β : Type} {scope scope' : Scope π ρ} {origin origin' : Origin} {q : Parser π ρ β} {e : C}
    {f : D} {next : Outcome C β → Dialogue π ρ C (Outcome C α)}
    {next' : Outcome D β → Dialogue π ρ D (Outcome D α)} (hscope : scope.bodies = scope'.bodies)
    (hall : scope.All K.Suits) (hq : q.All K.Suits) (hstep : InStep c d e f)
    (hnext : ∀ o o', o.Lockstep e f o' → Lockstep K c d (next o) (next' o')) :
    Lockstep K c d (.ask scope origin q e next) (.ask scope' origin' q f next')

/-- Asking for the same run on both sides goes in lockstep. -/
theorem lockstep_ask {scope scope' : Scope π ρ} {q : Parser π ρ α} {origin origin' : Origin}
    (hstep : InStep c d e f) (hscope : scope.bodies = scope'.bodies) (hall : scope.All K.Suits)
    (hq : q.All K.Suits) :
    Lockstep K c d (.ask scope origin q e .done) (.ask scope' origin' q f .done) :=
  .ask hscope hall hq hstep fun _ _ ho => .done (ho.trans hstep)

/-- Branches go in lockstep if their parts do. -/
theorem lockstep_branch {β : Type} {p : Recognizer (Dialogue π ρ C) C β}
    {p' : Recognizer (Dialogue π ρ D) D β} {next : β → Recognizer (Dialogue π ρ C) C α}
    {next' : β → Recognizer (Dialogue π ρ D) D α}
    {otherwise : NoSuccess → Recognizer (Dialogue π ρ C) C α}
    {otherwise' : NoSuccess → Recognizer (Dialogue π ρ D) D α}
    (hp : Lockstep K c d (p e) (p' f))
    (hnext : ∀ b e' f', InStep c d e' f' → Lockstep K c d (next b e') (next' b f'))
    (hotherwise : ∀ r r', (Outcome.noSuccess r : Outcome C β).Lockstep c d (.noSuccess r') →
      r.isFailure = true → Lockstep K c d (otherwise r e) (otherwise' r' f)) :
    Lockstep K c d (branch p next otherwise e) (branch p' next' otherwise' f) := by
  unfold branch
  generalize p e = x at hp
  generalize p' f = y at hp
  induction hp with
  | done ho =>
    cases ho with
    | success b hstep => exact hnext b _ _ hstep
    | @noSuccess r r' _ _ hseverity hexpected hstep hl hl' =>
      have hfailure : r'.isFailure = r.isFailure := by
        rw [NoSuccess.isFailure, NoSuccess.isFailure, hseverity]
      change Lockstep K c d (if r.isFailure then otherwise r e else Dialogue.done (.noSuccess r))
        (if r'.isFailure then otherwise' r' f else Dialogue.done (.noSuccess r'))
      rw [hfailure]
      have hreport := Outcome.Lockstep.noSuccess (α := β) hseverity hexpected hstep hl hl'
      split
      · exact hotherwise r r' hreport ‹_›
      · exact .done (.noSuccess hseverity hexpected hstep hl hl')
  | stop halt => exact .stop halt
  | ask hscope hall hq hstep _ ih => exact .ask hscope hall hq hstep ih

/-- Going in lockstep, as a relation between recognizers. -/
def lockstep [Cursor.Lawful C] [Cursor.Lawful D] (h : K.paired c d) :
    Simulation (Dialogue π ρ C) (Dialogue π ρ D) (K.ahead h) where
  rel := Lockstep K c d
  success a _ _ hstep := .done (.success a hstep)
  failure hr _ := by
    obtain ⟨e, f, hstep, hl, hl'⟩ := hr.location
    exact .done (.noSuccess hr.severity_eq hr.expected_eq hstep hl hl')
  branch hp hnext hotherwise := by
    refine lockstep_branch hp hnext fun r r' ho hr => hotherwise r r' ?_ hr
    cases ho with
    | noSuccess hseverity hexpected hstep hl hl' =>
      exact ⟨hseverity, hexpected, _, _, hstep, hl, hl'⟩

end Dialogue

/-! ## One step -/

section Plan

open Dialogue

variable {π : Type → Type} {C D T ρ α : Type} [Cursor C T] [Cursor D T] [Cursor.Lawful C]
  [Cursor.Lawful D] [Primitive π] [Primitive.Runs π C] [Primitive.Runs π D] {K : Pairing C D}
  {env : Environment π ρ} {ctx ctx' : Context π ρ} {c : C} {d : D}

omit [Primitive π] in
/-- A primitive parser that agrees goes in lockstep. -/
theorem related_lockstep_primitive {x : π α} (hx : K.Agrees x) (h : K.paired c d) :
    (lockstep (π := π) (ρ := ρ) h).Related (fun e => ofExcept (Primitive.Runs.parse x e))
      fun f => ofExcept (Primitive.Runs.parse x f) := by
  intro e f hstep
  have hends := hx e f (K.paired_of_inStep h hstep)
  change Lockstep K c d (ofExcept (Primitive.Runs.parse x e)) (ofExcept (Primitive.Runs.parse x f))
  generalize Primitive.Runs.parse x e = y at hends
  generalize Primitive.Runs.parse x f = z at hends
  cases hends with
  | value ho => exact .done (ho.trans hstep)
  | halt halt => exact .stop halt

omit [Primitive π] in
/-- Aborts go in lockstep. -/
theorem related_lockstep_abort (h : K.paired c d) (expected : String) :
    (lockstep (π := π) (ρ := ρ) h).Related (Recognizer.abort (α := α) expected)
      (Recognizer.abort expected) :=
  fun _ _ hstep => Lockstep.done (.noSuccess rfl rfl hstep rfl rfl)

/-- What a suitable expression does at two paired cursors goes in lockstep. -/
theorem lockstep_plan (h : K.paired c d) (henv : env.All K.Suits)
    (hscope : ctx.scope.bodies = ctx'.scope.bodies) (hall : ctx.scope.All K.Suits)
    {p : Parser π ρ α} (hp : p.All K.Suits) (fuel : Nat) :
    Lockstep K c d (p.plan env fuel ctx c) (p.plan env fuel ctx' d) := by
  suffices (lockstep h).Related (p.plan env fuel ctx) (p.plan env fuel ctx') from
    this c d (.refl c d)
  -- both sides ask for the same expressions, in scopes with the same bodies
  have ask {β : Type} {q : Parser π ρ β} (hq : q.All K.Suits) (origin : Origin) :
      (lockstep h).Related (fun e => .ask ctx.scope origin q e .done)
        (fun f => .ask ctx'.scope origin q f .done) :=
    fun e f hstep => lockstep_ask hstep hscope hall hq
  have stop {β : Type} (halt : Halt) : (lockstep (π := π) (ρ := ρ) h).Related (α := β)
      (fun _ => .stop halt) (fun _ => .stop halt) := fun _ _ _ => Lockstep.stop halt
  induction p using Parser.forms with
  | combination p hcombination =>
    exact (lockstep h).related_step hcombination
      (hp.eachPart.imp fun q hq origin => ask hq origin)
      (hp.eachPart.imp fun q hq => (lockstep h).related_openEnded (ask hq .same) fuel (l := 0)
        (stop .outOfFuel))
  | contextual p hcontext =>
    cases p with
    | recursive name body =>
      intro e f hstep
      refine lockstep_ask hstep ?_ (hall.cons hp.2) hp.2
      exact congrArg (List.cons _) hscope
    | self name =>
      refine (lockstep h).related_self hscope name (related_lockstep_abort h) ?_
      intro label build build' body outer outer' hsuffix houter e f hstep
      have hbody : body.All K.Suits := hall label build body (hsuffix.mem List.mem_cons_self)
      have houterAll := hall.of_suffix ((List.suffix_cons _ _).trans hsuffix)
      refine lockstep_ask hstep ?_ (houterAll.cons hbody) hbody
      exact congrArg (List.cons _) houter
    | define site name =>
      exact fun e f hstep => lockstep_ask hstep rfl Scope.all_nil (henv.definition name)
    | rule r =>
      change (lockstep h).Related ((Parser.rule r).step env fuel _ ctx)
        ((Parser.rule r).step env fuel _ ctx')
      rw [Parser.step_rule, Parser.step_rule]
      split
      · exact related_lockstep_abort h _
      · exact stop _
      · rename_i hbound
        exact fun e f hstep => lockstep_ask hstep rfl Scope.all_nil (henv.rule hbound)
    | _ => cases hcontext
  | primitive x => exact related_lockstep_primitive hp h
  | abort expected => exact related_lockstep_abort h expected
  | joined element separator =>
    exact (lockstep h).related_joined (ask hp.2.1 .same)
      ((lockstep h).related_pairs (ask hp.2.1 .same) (ask hp.2.2 .same) fuel (l := 0)
        (stop .outOfFuel))
  | withSpan p =>
    -- the only expression that tells where it has stood
    have hspans : K.SameSpans := hp.1
    exact (lockstep h).related_withSpan (ask hp.2 .same) fun hstep hstep' =>
      hspans (K.paired_of_inStep h hstep) (K.paired_of_inStep h hstep')

end Plan

/-! ## Runs side by side -/

/-- Whether two runs end alike and keep a relation between their states, however they end. -/
def Tandem {σ τ α β : Type} (S : σ → τ → Prop) (V : α → β → Prop) (x : Effect σ α)
    (y : Effect τ β) : Prop :=
  ∀ s t, S s t → Ends V (x.run s).1 (y.run t).1 ∧ S (x.run s).2 (y.run t).2

namespace Tandem

variable {σ τ α β γ δ : Type} {S : σ → τ → Prop} {V : α → β → Prop} {W : γ → δ → Prop}

/-- Values that are related may be returned. -/
theorem pure {a : α} {b : β} (h : V a b) : Tandem S V (Pure.pure a) (Pure.pure b) :=
  fun _ _ hst => ⟨.value h, hst⟩

/-- Both runs may stop for the same reason. -/
theorem halt (h : Halt) : Tandem S V (Parsing.halt h) (Parsing.halt h) :=
  fun _ _ hst => ⟨.halt h, hst⟩

/-- Runs in sequence keep the relation. -/
theorem bind {x : Effect σ α} {y : Effect τ β} {f : α → Effect σ γ} {g : β → Effect τ δ}
    (hxy : Tandem S V x y) (hfg : ∀ a b, V a b → Tandem S W (f a) (g b)) :
    Tandem S W (x >>= f) (y >>= g) := by
  intro s t hst
  obtain ⟨hends, hst'⟩ := hxy s t hst
  rw [Effect.run_bind, Effect.run_bind]
  generalize x.run s = u at hends hst'
  generalize y.run t = v at hends hst'
  obtain ⟨a, s'⟩ := u
  obtain ⟨b, t'⟩ := v
  cases hends with
  | value hV => exact hfg _ _ hV s' t' hst'
  | halt h => exact ⟨.halt h, hst'⟩

/-- Two changes of state may give different values, if what comes after does not depend on them. -/
theorem update_bind {ε ζ : Type} {f : σ → ε × σ} {g : τ → ζ × τ} {x : ε → Effect σ α}
    {y : ζ → Effect τ β} (h : ∀ s t, S s t → S (f s).2 (g t).2)
    (hxy : ∀ a b, Tandem S V (x a) (y b)) :
    Tandem S V (update f >>= x) (update g >>= y) :=
  fun s t hst => hxy _ _ (f s).2 (g t).2 (h s t hst)

end Tandem

section Held

variable {π : Type → Type} {C D T ρ σ τ α : Type} [Cursor C T] [Cursor D T] [Primitive.Runs π C]
  [Primitive.Runs π D] {K : Pairing C D} {c : C} {d : D}

/-- Dialogues that go in lockstep are runs in lockstep, if the answers to suitable expressions
are. -/
theorem Dialogue.Lockstep.tandem {S : σ → τ → Prop}
    {answer : {β : Type} → Scope π ρ → Origin → Parser π ρ β → Recognizer (Effect σ) C β}
    {answer' : {β : Type} → Scope π ρ → Origin → Parser π ρ β → Recognizer (Effect τ) D β}
    (h : ∀ {β : Type} {scope scope' : Scope π ρ} {origin origin' : Origin} {q : Parser π ρ β}
      {e : C} {f : D}, scope.bodies = scope'.bodies → scope.All K.Suits → q.All K.Suits →
        InStep c d e f →
          Tandem S (Outcome.Lockstep e f) (answer scope origin q e) (answer' scope' origin' q f))
    {x : Dialogue π ρ C (Outcome C α)} {y : Dialogue π ρ D (Outcome D α)}
    (hxy : Lockstep K c d x y) :
    Tandem S (Outcome.Lockstep c d) (x.run answer) (y.run answer') := by
  induction hxy with
  | done ho => exact .pure ho
  | stop halt => exact .halt halt
  | ask hscope hall hq hstep _ ih => exact (h hscope hall hq hstep).bind ih

end Held

/-! ## Sessions -/

section Sessions

variable {C D T ρ : Type} [Cursor C T] [Cursor D T] {K : Pairing C D} {c : C} {d : D} {r : RuleId}

/-- Whether a rule knows the same of two cursors. -/
inductive MemoEntry.Lockstep (c : C) (d : D) :
    Option (MemoEntry C ρ) → Option (MemoEntry D ρ) → Prop where
  | unknown : Lockstep c d none none
  | pending : Lockstep c d (some .pending) (some .pending)
  | resolved {o : Outcome C ρ} {o' : Outcome D ρ} :
    o.Lockstep c d o' → Lockstep c d (some (.resolved o)) (some (.resolved o'))

/-- Whether rules know the same of paired cursors. -/
structure Session.Lockstep (K : Pairing C D) (s : Session C ρ) (t : Session D ρ) : Prop where
  lookup {c : C} {d : D} : K.paired c d → ∀ r,
    MemoEntry.Lockstep c d (s.lookup r (Cursor.key c)) (t.lookup r (Cursor.key d))
  input_iff {c : C} {d : D} : K.paired c d → ∀ r,
    ((s.memo r).input = some (Cursor.key c).1 ↔ (t.memo r).input = some (Cursor.key d).1)

namespace Session.Lockstep

variable {s s' : Session C ρ} {t t' : Session D ρ}

/-- What rules know of paired cursors depends on the memos of sessions only. -/
theorem of_memos (h : s.Lockstep K t) (hs : s'.memos = s.memos) (ht : t'.memos = t.memos) :
    s'.Lockstep K t' where
  lookup hcd r := by
    rw [lookup_congr hs, lookup_congr ht]
    exact h.lookup hcd r
  input_iff hcd r := by
    rw [Session.memo, Session.memo, hs, ht]
    exact h.input_iff hcd r

/-- Sessions in which no rule has seen the inputs. -/
theorem of_unseen (hs : ∀ {c d}, K.paired c d → ∀ r, (s.memo r).input ≠ some (Cursor.key c).1)
    (ht : ∀ {c d}, K.paired c d → ∀ r, (t.memo r).input ≠ some (Cursor.key d).1) :
    s.Lockstep K t where
  lookup hcd r := by
    rw [lookup_eq, lookup_eq, if_neg (hs hcd r), if_neg (ht hcd r)]
    exact .unknown
  input_iff hcd r := iff_of_false (hs hcd r) (ht hcd r)

/-- A call on both sides leaves rules with the same. -/
theorem call (h : s.Lockstep K t) (hcd : K.paired c d) (r : RuleId) :
    (s.call r (Cursor.key c)).2.Lockstep K (t.call r (Cursor.key d)).2 where
  lookup {e f} hef r' := by
    rw [lookup_call, lookup_call]
    by_cases hr : r' = r
    · subst hr
      rw [if_pos rfl, if_pos rfl]
      by_cases hkey : Cursor.key e = Cursor.key c
      · obtain ⟨rfl, rfl⟩ := K.eq_of_key_left hef hcd hkey
        rw [if_pos rfl, if_pos rfl]
        have hentry := h.lookup hef r'
        generalize s.lookup r' (Cursor.key e) = x at hentry ⊢
        generalize t.lookup r' (Cursor.key f) = y at hentry ⊢
        cases hentry with
        | unknown => exact .pending
        | pending => exact .pending
        | resolved ho => exact .resolved ho
      · rw [if_neg hkey, if_neg ((Pairing.key_eq_iff hef hcd).not.mp hkey)]
        -- another place: it is forgotten on both sides if the call has turned to another input
        have hinput : (Cursor.key e).1 = (Cursor.key c).1 ↔ (Cursor.key f).1 = (Cursor.key d).1 :=
          K.input_eq_iff hef hcd
        by_cases hi : (Cursor.key e).1 = (Cursor.key c).1
        · rw [if_pos hi, if_pos (hinput.mp hi)]
          exact h.lookup hef r'
        · rw [if_neg hi, if_neg (hinput.not.mp hi)]
          exact .unknown
    · rw [if_neg hr, if_neg hr]
      exact h.lookup hef r'
  input_iff {e f} hef r' := by
    by_cases hr : r' = r
    · subst hr
      rw [input_memo_call, input_memo_call, Option.some.injEq, Option.some.injEq]
      exact K.input_eq_iff hcd hef
    · rw [Session.call, Session.call, memo_setMemo, memo_setMemo, if_neg hr, if_neg hr]
      exact h.input_iff hef r'

/-- Outcomes that are alike may be remembered on both sides. -/
theorem resolveCall {o : Outcome C ρ} {o' : Outcome D ρ} (h : s.Lockstep K t) (hcd : K.paired c d)
    (ho : o.Lockstep c d o') (r : RuleId) :
    (s.resolveCall r (Cursor.key c) o).Lockstep K (t.resolveCall r (Cursor.key d) o') where
  lookup {e f} hef r' := by
    rw [lookup_resolveCall, lookup_resolveCall]
    by_cases hplace : r' = r ∧ Cursor.key e = Cursor.key c
    · obtain ⟨rfl, hkey⟩ := hplace
      obtain ⟨rfl, rfl⟩ := K.eq_of_key_left hef hcd hkey
      rw [if_pos (And.intro rfl rfl), if_pos (And.intro rfl rfl)]
      by_cases hi : (s.memo r').input = some (Cursor.key e).1
      · rw [if_pos hi, if_pos ((h.input_iff hef r').mp hi)]
        exact .resolved ho
      · rw [if_neg hi, if_neg ((h.input_iff hef r').not.mp hi)]
        exact .unknown
    · rw [if_neg hplace, if_neg fun h' => hplace ⟨h'.1, (Pairing.key_eq_iff hef hcd).mpr h'.2⟩]
      exact h.lookup hef r'
  input_iff {e f} hef r' := by
    have hinput := h.input_iff hef r'
    rw [Session.resolveCall, Session.resolveCall, memo_setMemo, memo_setMemo]
    by_cases hr : r' = r
    · subst hr
      rw [if_pos rfl, if_pos rfl]
      exact hinput
    · rw [if_neg hr, if_neg hr]
      exact hinput

end Session.Lockstep

/-- A rule that keeps a memo goes in lockstep if its parser does. -/
theorem Tandem.memoized (hcd : K.paired c d) {body : Recognizer (Effect (Session C ρ)) C ρ}
    {body' : Recognizer (Effect (Session D ρ)) D ρ}
    (hbody : Tandem (Session.Lockstep K) (Outcome.Lockstep c d) (body c) (body' d)) :
    Tandem (Session.Lockstep K) (Outcome.Lockstep c d) (memoized r body c)
      (memoized r body' d) := by
  intro s t hst
  have hentry := hst.lookup hcd r
  have hcall := hst.call hcd r
  rcases hs : s.lookup r (Cursor.key c) with _ | _ | o <;>
    rcases ht : t.lookup r (Cursor.key d) with _ | _ | o' <;>
    rw [hs, ht] at hentry <;> cases hentry
  · rw [run_memoized_of_none _ hs, run_memoized_of_none _ ht]
    obtain ⟨hends, hst'⟩ := hbody _ _ hcall
    generalize (body c).run (s.call r (Cursor.key c)).2 = u at hends hst'
    generalize (body' d).run (t.call r (Cursor.key d)).2 = v at hends hst'
    obtain ⟨a, s'⟩ := u
    obtain ⟨b, t'⟩ := v
    cases hends with
    | value ho => exact ⟨.value ho, hst'.resolveCall hcd ho r⟩
    | halt halt => exact ⟨.halt halt, hst'⟩
  · rw [run_memoized_of_pending _ hs, run_memoized_of_pending _ ht]
    exact ⟨.value (Outcome.lockstep_report _ _ c d), hcall⟩
  · rw [run_memoized_of_resolved _ hs, run_memoized_of_resolved _ ht]
    rename_i ho
    exact ⟨.value ho, hcall⟩

end Sessions

/-! ## Whole runs -/

section Runs

variable {π : Type → Type} {C D T ρ α : Type} [Cursor C T] [Cursor D T] [Cursor.Lawful C]
  [Cursor.Lawful D] [Primitive π] [Primitive.Runs π C] [Primitive.Runs π D] {K : Pairing C D}
  {env : Environment π ρ} {c : C} {d : D}

/-- A suitable expression goes in lockstep at paired cursors, from sessions in which rules know the
same of such cursors. -/
theorem Parser.eval_tandem (henv : env.All K.Suits) (fuel : Nat) {ctx ctx' : Context π ρ}
    (hscope : ctx.scope.bodies = ctx'.scope.bodies) (hall : ctx.scope.All K.Suits)
    {p : Parser π ρ α} (hp : p.All K.Suits) (hcd : K.paired c d) :
    Tandem (Session.Lockstep K) (Outcome.Lockstep c d) (p.eval env fuel ctx c)
      (p.eval env fuel ctx' d) := by
  induction fuel generalizing α ctx ctx' c d with
  | zero => exact .halt .outOfFuel
  | succ n ih =>
    -- what the dialogue asks for is answered one level deeper, behind an entry in the books
    have below : Tandem (Session.Lockstep K) (Outcome.Lockstep c d)
        ((p.plan env n ctx c).run (answer env n ctx.build))
        ((p.plan env n ctx' d).run (answer env n ctx'.build)) := by
      refine (lockstep_plan hcd henv hscope hall hp n).tandem fun hscope' hall' hq hstep => ?_
      refine .update_bind (fun s t hst => ?_) fun _ _ =>
        ih hscope' hall' hq (K.paired_of_inStep hcd hstep)
      exact hst.of_memos (s.memos_enter _ _) (t.memos_enter _ _)
    rw [eval_succ, eval_succ]
    induction p using Parser.books with
    | none p hbooks =>
      rw [attend_eq_self hbooks, attend_eq_self hbooks]
      exact below
    | tally name p =>
      rw [attend_tally, attend_tally]
      refine below.bind fun o o' ho => ?_
      cases ho with
      | success a hstep =>
        exact .update_bind (fun s t hst => hst.of_memos (s.memos_tally name) (t.memos_tally name))
          fun _ _ => .pure (.success a hstep)
      | noSuccess hseverity hexpected hstep hl hl' =>
        exact .pure (.noSuccess hseverity hexpected hstep hl hl')
    | rule r =>
      rw [attend_rule, attend_rule]
      split
      · exact .memoized hcd below
      · exact below

end Runs

end Parsing
