import Mathlib.Logic.Relation
import Parsing.Proofs.Grammar.Plain
import Parsing.Proofs.Parser.Forward

/-!
# What runs invoke

An `Invocation` is an expression that runs at a cursor, inside of some recursive parsers. It invokes
what its dialogue asks for when it is answered with what that comes to without memos
(`Invocation.Invokes`). What an invocation invokes returns within a lesser bound than the invocation
itself (`Invokes.exists_returnsWithin`), and of what does not return it invokes one thing at most
(`Invokes.eq_of_stuck`). So an invocation that leads to itself never returns (`stuck_of_cycle`).

With memos it may come to something nevertheless, namely to the error of a rule that is called where
it is at work. There is one place only where that can be (`Reenters.cursor_eq`), so what an
invocation comes to with memos or without them (`Invocation.Comes`) is one outcome at most.
-/

namespace Parsing

open Recognizer Cursor Relation

variable {π : Type → Type} {C T ρ α : Type}

/-! ## Scopes without builds -/

/-- The scope in which names stand for given parsers, all of one build. -/
def Scope.ofBodies (bodies : List (String × Option (Parser π ρ ρ))) : Scope π ρ :=
  bodies.map fun entry => (entry.1, entry.2.elim .dropped (.live ⟨0⟩))

/-- A scope that is made of bodies has these bodies. -/
theorem Scope.bodies_ofBodies (bodies : List (String × Option (Parser π ρ ρ))) :
    (ofBodies bodies).bodies = bodies := by
  induction bodies with
  | nil => rfl
  | cons entry bodies ih =>
    obtain ⟨name, _ | body⟩ := entry <;> exact congrArg (List.cons _) ih

/-- An expression that runs at a cursor, inside of recursive parsers with given bodies. -/
structure Invocation (π : Type → Type) (ρ C : Type) : Type 1 where
  {α : Type}
  bodies : List (String × Option (Parser π ρ ρ))
  parser : Parser π ρ α
  cursor : C

/-- A context that an invocation may stand in. -/
def Invocation.ctx (k : Invocation π ρ C) : Context π ρ :=
  { scope := .ofBodies k.bodies }

/-! ## Dialogues with given answers -/

namespace Dialogue

/-- Whether a dialogue with given answers ends with a value. -/
inductive Finishes (A : (k : Invocation π ρ C) → Outcome C k.α → Prop) :
    Dialogue π ρ C α → α → Prop where
  | done (a : α) : Finishes A (.done a) a
  | ask {β : Type} {scope : Scope π ρ} {origin : Origin} {q : Parser π ρ β} {c : C}
    {next : Outcome C β → Dialogue π ρ C α} {o : Outcome C β} {a : α}
    (ho : A ⟨scope.bodies, q, c⟩ o)
    (h : Finishes A (next o) a) : Finishes A (.ask scope origin q c next) a

/-- Whether a dialogue with given answers comes to ask for an invocation. -/
inductive Reaches (A : (k : Invocation π ρ C) → Outcome C k.α → Prop) :
    Dialogue π ρ C α → Invocation π ρ C → Prop where
  | here {β : Type} {scope : Scope π ρ} {origin : Origin} {q : Parser π ρ β} {c : C}
    {next : Outcome C β → Dialogue π ρ C α} :
    Reaches A (.ask scope origin q c next) ⟨scope.bodies, q, c⟩
  | later {β : Type} {scope : Scope π ρ} {origin : Origin} {q : Parser π ρ β} {c : C}
    {next : Outcome C β → Dialogue π ρ C α} {o : Outcome C β} {k : Invocation π ρ C}
    (ho : A ⟨scope.bodies, q, c⟩ o) (h : Reaches A (next o) k) :
    Reaches A (.ask scope origin q c next) k

variable {A B : (k : Invocation π ρ C) → Outcome C k.α → Prop} {x y : Dialogue π ρ C α}
  {k l : Invocation π ρ C}

/-- What a dialogue reaches, one that refines it reaches. -/
theorem Refines.reaches (hxy : x.Refines y) (h : x.Reaches A k) : y.Reaches A k := by
  induction h generalizing y with
  | here =>
    cases hxy with
    | ask hscope hnext =>
      rw [hscope]
      exact .here
  | later ho _ ih =>
    cases hxy with
    | ask hscope hnext =>
      rw [hscope] at ho
      exact .later ho (ih (hnext _))

section

variable (hA : ∀ {k : Invocation π ρ C} {o o' : Outcome C k.α}, A k o → A k o' → o = o')

include hA

/-- A dialogue asks for one invocation at most that is not answered. -/
theorem Reaches.eq_of_unanswered (hk : x.Reaches A k) (hl : x.Reaches A l) (hk' : ∀ o, ¬A k o)
    (hl' : ∀ o, ¬A l o) : k = l := by
  induction hk with
  | here =>
    cases hl with
    | here => rfl
    | later ho _ => exact absurd ho (hk' _)
  | later ho _ ih =>
    cases hl with
    | here => exact absurd ho (hl' _)
    | later ho' hl =>
      -- both have gone on with the same answer
      cases hA ho ho'
      exact ih hl hk'

/-- A dialogue that ends, or one that goes on like it, asks for nothing that was not answered. -/
theorem Finishes.exists_of_reaches
    (hBA : ∀ {k : Invocation π ρ C} {o : Outcome C k.α}, B k o → A k o) {a : α}
    (hx : x.Finishes B a) (hxy : x.Refines y) (hy : y.Reaches A k) : ∃ o, B k o := by
  induction hx generalizing y with
  | done a =>
    cases hxy
    cases hy
  | ask ho _ ih =>
    cases hxy with
    | ask hscope hnext =>
      rw [hscope] at ho
      cases hy with
      | here => exact ⟨_, ho⟩
      | later ho' hy =>
        cases hA (hBA ho) ho'
        exact ih (hnext _) hy

end

end Dialogue

/-! ## Returning -/

variable [Cursor C T] [Primitive π] [Primitive.Runs π C] {env : Environment π ρ} {I : Inputs C}
  {base : C}

namespace Invocation

/-- Whether an invocation comes to an outcome within a bound, if no rule keeps a memo. -/
def ReturnsWithin (env : Environment π ρ) (fuel : ℕ) (k : Invocation π ρ C)
    (o : Outcome C k.α) : Prop :=
  ∃ s : Session C ρ, (k.parser.run env.plain fuel k.ctx k.cursor s).1 = .ok o

/-- Whether an invocation comes to an outcome, if no rule keeps a memo. -/
def Returns (env : Environment π ρ) (k : Invocation π ρ C) (o : Outcome C k.α) : Prop :=
  ∃ fuel, k.ReturnsWithin env fuel o

/-- Whether an invocation comes to no outcome, if no rule keeps a memo. -/
def Stuck (env : Environment π ρ) (k : Invocation π ρ C) : Prop :=
  ∀ o, ¬k.Returns env o

/-- Whether an invocation leads to another one directly inside of its own run, if no rule keeps a
memo. -/
def Invokes (env : Environment π ρ) (k l : Invocation π ρ C) : Prop :=
  ∃ fuel, (k.parser.plan env fuel k.ctx k.cursor).Reaches (Returns env) l

variable {k l : Invocation π ρ C} {p : Parser π ρ α} {ctx : Context π ρ} {c : C} {n m : ℕ}

/-- A run without memos that comes to an outcome is the return of its invocation. -/
theorem ReturnsWithin.of_run {o : Outcome C α} {s : Session C ρ}
    (h : (p.run env.plain n ctx c s).1 = .ok o) :
    ReturnsWithin env n ⟨ctx.scope.bodies, p, c⟩ o :=
  ⟨s, Parser.run_plain_of_run_plain (Nat.le_refl n) (Scope.bodies_ofBodies _).symm h s⟩

/-- What an invocation returns within a bound, every run with that bound comes to. -/
theorem ReturnsWithin.run {o : Outcome C α} (h : ReturnsWithin env n ⟨ctx.scope.bodies, p, c⟩ o)
    (hnm : n ≤ m) (s : Session C ρ) : (p.run env.plain m ctx c s).1 = .ok o := by
  obtain ⟨t, hrun⟩ := h
  exact Parser.run_plain_of_run_plain hnm (Scope.bodies_ofBodies _) hrun s

/-- An invocation returns one outcome at most. -/
theorem Returns.eq {o o' : Outcome C k.α} (h : k.Returns env o) (h' : k.Returns env o') :
    o = o' := by
  obtain ⟨n, s, hn⟩ := h
  obtain ⟨m, t, hm⟩ := h'
  have hleft := Parser.run_plain_of_run_plain (Nat.le_max_left n m) rfl hn s
  have hright := Parser.run_plain_of_run_plain (Nat.le_max_right n m) rfl hm s
  exact Except.ok.inj (hleft.symm.trans hright)

/-- The dialogue of an expression goes as that of the invocation does. -/
theorem refines_plan (env : Environment π ρ) (p : Parser π ρ α) (ctx : Context π ρ) (c : C)
    (hnm : n ≤ m) : (p.plan env n ctx c).Refines
      (p.plan env m (⟨ctx.scope.bodies, p, c⟩ : Invocation π ρ C).ctx c) :=
  Parser.refines_plan env hnm (Scope.bodies_ofBodies _).symm p c

/-- What an expression asks for, its invocation invokes. -/
theorem Invokes.of_reaches (h : (p.plan env n ctx c).Reaches (Returns env) l) :
    Invokes env ⟨ctx.scope.bodies, p, c⟩ l :=
  ⟨n, (refines_plan env p ctx c (Nat.le_refl n)).reaches h⟩

/-- An invocation invokes at most one invocation that does not return. -/
theorem Invokes.eq_of_stuck {l' : Invocation π ρ C} (h : k.Invokes env l) (h' : k.Invokes env l')
    (hl : l.Stuck env) (hl' : l'.Stuck env) : l = l' := by
  obtain ⟨n, hreaches⟩ := h
  obtain ⟨m, hreaches'⟩ := h'
  -- with the greater bound one dialogue reaches both
  have hrefines {i : ℕ} (hi : i ≤ max n m) : (k.parser.plan env i k.ctx k.cursor).Refines
      (k.parser.plan env (max n m) k.ctx k.cursor) := Parser.refines_plan env hi rfl _ _
  have hreaches₁ := (hrefines (Nat.le_max_left n m)).reaches hreaches
  have hreaches₂ := (hrefines (Nat.le_max_right n m)).reaches hreaches'
  exact hreaches₁.eq_of_unanswered Returns.eq hreaches₂ hl hl'

end Invocation

/-- A dialogue that finishes is run to its end, for a bound that is great enough. -/
theorem Dialogue.Finishes.exists_run {x : Dialogue π ρ C α} {a : α}
    (hx : x.Finishes (Invocation.Returns env) a) (build : BuildId) (s : Session C ρ) :
    ∃ n s', (x.run (Parser.answer env.plain n build)).run s = (.ok a, s') := by
  induction hx generalizing s with
  | done a => exact ⟨0, s, rfl⟩
  | @ask β scope origin q c next o a ho _ ih =>
    obtain ⟨n, hn⟩ := ho
    have hanswer : ((Parser.answer env.plain n build scope origin q c).run s).1 = .ok o :=
      Invocation.ReturnsWithin.run hn (Nat.le_refl n) (s.enter build origin).2
    obtain ⟨m, s', hnext⟩ := ih ((Parser.answer env.plain n build scope origin q c).run s).2
    exact exists_run_ask (Prod.ext hanswer rfl) hnext

/-- A dialogue that is held within a bound ends with answers that are given within that bound. -/
theorem Dialogue.finishes_of_run {x : Dialogue π ρ C α} {build : BuildId} {n : ℕ}
    {s : Session C ρ} {a : α} (h : ((x.run (Parser.answer env.plain n build)).run s).1 = .ok a) :
    x.Finishes (Invocation.ReturnsWithin env n) a := by
  induction x generalizing s with
  | done =>
    cases h
    exact .done _
  | stop => cases h
  | ask scope origin q c next ih =>
    rw [Dialogue.run, Effect.run_bind] at h
    rcases hanswer : (Parser.answer env.plain n build scope origin q c).run s with ⟨_ | o, s₁⟩
    all_goals rw [hanswer] at h
    · cases h
    · have hrun : (q.run env.plain n ⟨scope, (s.enter build origin).1⟩ c
          (s.enter build origin).2).1 = .ok o := congrArg Prod.fst hanswer
      exact .ask (.of_run hrun) (ih o h)

namespace Invocation

variable {k l : Invocation π ρ C} {p : Parser π ρ α} {ctx : Context π ρ} {c : C} {n : ℕ}

/-- What the dialogue of an expression ends with is what the expression comes to. -/
theorem Returns.of_finishes {o : Outcome C α} (h : (p.plan env n ctx c).Finishes (Returns env) o) :
    Returns env ⟨ctx.scope.bodies, p, c⟩ o := by
  obtain ⟨m, s, hs⟩ := h.exists_run ⟨0⟩ {}
  obtain ⟨t, ht, -⟩ := (refines_plan env p ctx c (Nat.le_max_left n m)).follows
    (fun hscope => Parser.answer_plain_follows env (Nat.le_max_right n m) ⟨0⟩ ⟨0⟩ hscope _ _ _ _)
    {} {} trivial o s hs
  refine ⟨max n m + 1, {}, ?_⟩
  rw [Parser.run, Parser.eval_succ, Parser.fst_run_attend_plain, Parser.plan_plain]
  exact congrArg Prod.fst ht

/-- An invocation that returns has invoked only invocations that return within a lesser bound. -/
theorem Invokes.exists_returnsWithin (h : k.Invokes env l) {o : Outcome C k.α}
    (hreturns : k.ReturnsWithin env n o) : ∃ m < n, ∃ o', l.ReturnsWithin env m o' := by
  obtain ⟨s, hrun⟩ := hreturns
  cases n with
  | zero => cases hrun
  | succ n =>
    rw [Parser.run, Parser.eval_succ, Parser.fst_run_attend_plain, Parser.plan_plain] at hrun
    have hfinishes := Dialogue.finishes_of_run hrun
    obtain ⟨m, hreaches⟩ := h
    -- the dialogue that leads there may go on where the one that ended was at its bound
    have hrefines {i : ℕ} (hi : i ≤ max n m) : (k.parser.plan env i k.ctx k.cursor).Refines
        (k.parser.plan env (max n m) k.ctx k.cursor) := Parser.refines_plan env hi rfl _ _
    exact ⟨n, Nat.lt_succ_self n, hfinishes.exists_of_reaches Returns.eq (fun ho => ⟨n, ho⟩)
      (hrefines (Nat.le_max_left n m)) ((hrefines (Nat.le_max_right n m)).reaches hreaches)⟩

/-- An invocation that invokes one that does not return does not return either. -/
theorem Invokes.stuck (h : k.Invokes env l) (hl : l.Stuck env) : k.Stuck env := by
  rintro o ⟨n, hreturns⟩
  obtain ⟨m, -, o', hreturns'⟩ := h.exists_returnsWithin hreturns
  exact hl o' ⟨m, hreturns'⟩

/-- What leads to an invocation that comes to nothing comes to nothing. -/
theorem stuck_of_reflTransGen (h : ReflTransGen (Invokes env) k l) (hl : l.Stuck env) :
    k.Stuck env := by
  induction h using ReflTransGen.head_induction_on with
  | refl => exact hl
  | head hinvokes _ ih => exact hinvokes.stuck ih

/-- What is invoked on the way to an outcome returns within a lesser bound. -/
theorem exists_returnsWithin_of_transGen (h : TransGen (Invokes env) k l) {o : Outcome C k.α}
    (hreturns : k.ReturnsWithin env n o) : ∃ m < n, ∃ o', l.ReturnsWithin env m o' := by
  induction h with
  | single hinvokes => exact hinvokes.exists_returnsWithin hreturns
  | tail _ hinvokes ih =>
    obtain ⟨m, hm, o', hreturns'⟩ := ih
    obtain ⟨m', hm', h⟩ := hinvokes.exists_returnsWithin hreturns'
    exact ⟨m', Nat.lt_trans hm' hm, h⟩

/-- An invocation that leads to itself does not return. -/
theorem stuck_of_cycle (h : TransGen (Invokes env) k k) : k.Stuck env := by
  rintro o ⟨n, hreturns⟩
  -- each round of the cycle would return within a lesser bound
  induction n using Nat.strongRecOn generalizing o with
  | _ n ih =>
    obtain ⟨m, hm, o', hreturns'⟩ := exists_returnsWithin_of_transGen h hreturns
    exact ih m hm o' hreturns'

/-! ## Waiting -/

/-- Whether an invocation invokes another one and waits for it in vain. -/
def WaitsFor (env : Environment π ρ) (k l : Invocation π ρ C) : Prop :=
  k.Invokes env l ∧ l.Stuck env

/-- An invocation waits for one other at most. -/
theorem rightUnique_waitsFor : Relator.RightUnique (WaitsFor (C := C) env) :=
  fun _ _ _ h h' => h.1.eq_of_stuck h'.1 h.2 h'.2

/-- Whatever leads to an invocation that does not return waits for it. -/
theorem waitsFor_of_reflTransGen (h : ReflTransGen (Invokes env) k l) (hl : l.Stuck env) :
    ReflTransGen (WaitsFor env) k l := by
  induction h using ReflTransGen.head_induction_on with
  | refl => exact .refl
  | head hinvokes hpath ih => exact ih.head ⟨hinvokes, stuck_of_reflTransGen hpath hl⟩

/-- On a path to an invocation that comes to nothing, each waits for the next. -/
theorem waitsFor_of_transGen (h : TransGen (Invokes env) k l) (hl : l.Stuck env) :
    TransGen (WaitsFor env) k l := by
  obtain ⟨k', hinvokes, hpath⟩ := TransGen.head'_iff.mp h
  exact .head' ⟨hinvokes, stuck_of_reflTransGen hpath hl⟩ (waitsFor_of_reflTransGen hpath hl)

/-- Waiting is a way of invoking. -/
theorem reflTransGen_of_waitsFor (h : ReflTransGen (WaitsFor env) k l) :
    ReflTransGen (Invokes env) k l :=
  h.lift id fun _ _ h => h.1

end Invocation

/-- Whatever a cycle of a relation that goes on in one way only leads to leads back to the cycle. -/
theorem reflTransGen_of_cycle {β : Type*} {R : β → β → Prop} (hR : Relator.RightUnique R) {a b : β}
    (ha : TransGen R a a) (h : ReflTransGen R a b) : ReflTransGen R b a := by
  induction h with
  | refl => exact .refl
  | tail _ hbc ih =>
    obtain ⟨c, hbc', hca⟩ := TransGen.head'_iff.mp (TransGen.trans_right ih ha)
    rwa [hR hbc hbc']

/-! ## Places -/

variable [Cursor.Lawful C] [Primitive.Lawful π C]

/-- What an invocation comes to leaves a later cursor. -/
theorem Invocation.Returns.within {k : Invocation π ρ C} (hk : I.Has k.cursor) {o : Outcome C k.α}
    (h : k.Returns env o) : o.Within k.cursor := by
  obtain ⟨n, s, hrun⟩ := h
  have hrun' := Parser.run_plain_of_run_plain (Nat.le_refl n) rfl hrun {}
  exact ((k.parser.eval_keeps_forward env.plain {} n k.ctx hk).of_ok ⟨.empty, .refl _ _⟩
    (Prod.ext hrun' rfl)).2

/-- Invocations look ahead only. -/
theorem Dialogue.Ahead.after_of_reaches {x : Dialogue π ρ C (Outcome C α)} (hx : x.Ahead .any base)
    (hbase : I.Has base) {k : Invocation π ρ C} (h : x.Reaches (Invocation.Returns env) k) :
    After base k.cursor := by
  induction hx with
  | done => cases h
  | stop => cases h
  | ask _ hc _ ih =>
    cases h with
    | here => exact hc
    | later ho h => exact ih _ (ho.within (hbase.after hc)) (fun _ => trivial) h

namespace Invocation

variable {k l : Invocation π ρ C}

/-- What is invoked runs ahead. -/
theorem Invokes.after (hk : I.Has k.cursor) (h : k.Invokes env l) : After k.cursor l.cursor := by
  obtain ⟨n, hreaches⟩ := h
  exact (Parser.ahead_plan env n k.ctx k.parser (After.refl _)).after_of_reaches hk hreaches

/-- So does whatever a path of invocations leads to. -/
theorem after_of_reflTransGen (hk : I.Has k.cursor) (h : ReflTransGen (Invokes env) k l) :
    After k.cursor l.cursor := by
  induction h with
  | refl => exact After.refl _
  | tail _ hinvokes ih => exact ih.trans (hinvokes.after (hk.after ih))

/-- Invocations that wait for each other all stand at one place, since none of them stands behind
another. -/
theorem cursor_eq_of_cycle (hk : I.Has k.cursor) (hcycle : TransGen (WaitsFor env) k k)
    (hkl : ReflTransGen (WaitsFor env) k l) : l.cursor = k.cursor := by
  have hlk := reflTransGen_of_cycle rightUnique_waitsFor hcycle hkl
  have hafter := after_of_reflTransGen hk (reflTransGen_of_waitsFor hkl)
  exact hafter.antisymm (after_of_reflTransGen (hk.after hafter) (reflTransGen_of_waitsFor hlk))

omit [Cursor.Lawful C] [Primitive.Lawful π C] in
/-- Whether an invocation leads to a rule with a memo that is called again where it is still at
work, if no rule keeps a memo. -/
def Reenters (env : Environment π ρ) (k : Invocation π ρ C) (d : C) : Prop :=
  ∃ bodies r build body, env.rule r.id = .bound true build body ∧
    ReflTransGen (Invokes env) k ⟨bodies, .rule r, d⟩ ∧
    TransGen (Invokes env) ⟨bodies, .rule r, d⟩ ⟨bodies, .rule r, d⟩

omit [Cursor.Lawful C] [Primitive.Lawful π C] in
/-- What leads to an invocation that re-enters a rule re-enters it as well. -/
theorem Reenters.of_invokes {d : C} (hkl : k.Invokes env l) (h : l.Reenters env d) :
    k.Reenters env d := by
  obtain ⟨bodies, r, build, body, hr, hpath, hcycle⟩ := h
  exact ⟨bodies, r, build, body, hr, hpath.head hkl, hcycle⟩

omit [Cursor.Lawful C] [Primitive.Lawful π C] in
/-- An invocation that re-enters a rule comes to nothing. -/
theorem Reenters.stuck {d : C} (h : k.Reenters env d) : k.Stuck env := by
  obtain ⟨bodies, r, build, body, hr, hpath, hcycle⟩ := h
  exact stuck_of_reflTransGen hpath (stuck_of_cycle hcycle)

/-- All places at which an invocation leads to a rule that is still at work there are one place. -/
theorem Reenters.cursor_eq (hk : I.Has k.cursor) {d d' : C} (h : k.Reenters env d)
    (h' : k.Reenters env d') : d = d' := by
  obtain ⟨bodies, r, -, -, -, hpath, hcycle⟩ := h
  obtain ⟨bodies', r', -, -, -, hpath', hcycle'⟩ := h'
  have hstuck := stuck_of_cycle hcycle
  have hstuck' := stuck_of_cycle hcycle'
  have hd := hk.after (after_of_reflTransGen hk hpath)
  have hd' := hk.after (after_of_reflTransGen hk hpath')
  -- waiting goes on in one way only, so one of the two rules waits for the other
  rcases ReflTransGen.total_of_right_unique rightUnique_waitsFor
    (waitsFor_of_reflTransGen hpath hstuck) (waitsFor_of_reflTransGen hpath' hstuck') with
    hdd' | hdd'
  · exact (cursor_eq_of_cycle hd (waitsFor_of_transGen hcycle hstuck) hdd').symm
  · exact cursor_eq_of_cycle hd' (waitsFor_of_transGen hcycle' hstuck') hdd'

/-! ## What invocations come to -/

omit [Cursor.Lawful C] [Primitive.Lawful π C] in
/-- Whether an outcome is the one without memos, or the error of a rule that is re-entered. -/
def Comes (env : Environment π ρ) (k : Invocation π ρ C) (o : Outcome C k.α) : Prop :=
  k.Returns env o ∨ ∃ d, o = .noSuccess (leftRecursion d) ∧ k.Reenters env d

/-- There is one such outcome at most. -/
theorem Comes.unique (hk : I.Has k.cursor) {o o' : Outcome C k.α} (h : k.Comes env o)
    (h' : k.Comes env o') : o = o' := by
  rcases h with hreturns | ⟨d, rfl, hreenters⟩ <;> rcases h' with hreturns' | ⟨d', rfl, hreenters'⟩
  · exact hreturns.eq hreturns'
  · exact absurd hreturns (hreenters'.stuck o)
  · exact absurd hreturns' (hreenters.stuck o')
  · rw [hreenters.cursor_eq hk hreenters']

section

variable {r : Rule} {packrat : Bool} {build : BuildId} {body : Parser π ρ ρ}

omit [Cursor.Lawful C] [Primitive.Lawful π C] in
/-- The call of a rule leads to that of its parser, outside of all recursive parsers. -/
theorem invokes_rule (hr : env.rule r.id = .bound packrat build body)
    (bodies : List (String × Option (Parser π ρ ρ))) (c : C) :
    Invokes env ⟨bodies, .rule r, c⟩ ⟨[], body, c⟩ := by
  refine ⟨0, ?_⟩
  rw [Parser.plan, Parser.step_rule, hr]
  exact .here

omit [Cursor.Lawful C] [Primitive.Lawful π C] in
/-- A rule comes to what its parser comes to. -/
theorem Comes.rule (hr : env.rule r.id = .bound packrat build body) {c : C} {o : Outcome C ρ}
    (h : Comes env ⟨[], body, c⟩ o) (bodies : List (String × Option (Parser π ρ ρ))) :
    Comes env ⟨bodies, .rule r, c⟩ o := by
  rcases h with hreturns | ⟨d, rfl, hreenters⟩
  · have hfinishes : ((Parser.rule r).plan env 0 ⟨.ofBodies bodies, ⟨0⟩⟩ c).Finishes
        (Returns env) o := by
      rw [Parser.plan, Parser.step_rule, hr]
      exact .ask hreturns (.done o)
    have hrule := Returns.of_finishes hfinishes
    rw [Scope.bodies_ofBodies] at hrule
    exact .inl hrule
  · exact .inr ⟨d, rfl, hreenters.of_invokes (invokes_rule hr bodies c)⟩

end

end Invocation

end Parsing
