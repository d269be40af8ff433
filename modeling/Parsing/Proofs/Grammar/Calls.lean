import Parsing.Proofs.Grammar.Building
import Parsing.Proofs.Grammar.Invocations

/-!
# Calls of grounded expressions

A `Call` is an invocation outside of all recursive parsers (`Call.invocation`). Grounded expressions
invoke nothing but calls of grounded expressions (`Call.exists_invokes`), so the invocations that
they lead to, and the rules that are called again where they are still at work, can be told without
bodies (`Call.reenters_iff`); and without memos they come to no error
(`Call.Grounded.isError_of_returns`).
-/

namespace Parsing

open Recognizer Cursor Relation

variable {π : Type → Type} {C T ρ α : Type}

/-- An expression that runs at a cursor. -/
structure Call (π : Type → Type) (ρ C : Type) : Type 1 where
  {α : Type}
  parser : Parser π ρ α
  cursor : C

/-- Whether a dialogue with given answers, outside of all recursive parsers, asks for a call. -/
inductive Dialogue.Asks (A : (k : Call π ρ C) → Outcome C k.α → Prop) :
    Dialogue π ρ C α → Call π ρ C → Prop where
  | here {β : Type} {origin : Origin} {q : Parser π ρ β} {c : C}
    {next : Outcome C β → Dialogue π ρ C α} : Asks A (.ask [] origin q c next) ⟨q, c⟩
  | later {β : Type} {origin : Origin} {q : Parser π ρ β} {c : C}
    {next : Outcome C β → Dialogue π ρ C α} {o : Outcome C β} {k : Call π ρ C} (ho : A ⟨q, c⟩ o)
    (h : Asks A (next o) k) : Asks A (.ask [] origin q c next) k

namespace Call

/-- A call as the invocation that it is. -/
def invocation (k : Call π ρ C) : Invocation π ρ C :=
  ⟨[], k.parser, k.cursor⟩

/-- An invocation outside of all recursive parsers is one call only. -/
theorem eq_of_invocation_eq {bodies : List (String × Option (Parser π ρ ρ))} {p : Parser π ρ α}
    {c : C} {k : Call π ρ C} (h : ⟨bodies, p, c⟩ = k.invocation) : bodies = [] ∧ ⟨p, c⟩ = k := by
  obtain ⟨q, d⟩ := k
  change _ = (⟨[], q, d⟩ : Invocation π ρ C) at h
  cases h
  exact ⟨rfl, rfl⟩

variable [Cursor C T] [Primitive π] [Primitive.Runs π C] {env : Environment π ρ}

/-- Whether a call comes to an outcome, if no rule keeps a memo. -/
def Returns (env : Environment π ρ) (k : Call π ρ C) (o : Outcome C k.α) : Prop :=
  k.parser.Returns env k.cursor o

/-- Whether a call leads to the run of a call directly inside of its own, if no rule keeps a
memo. -/
def Invokes (env : Environment π ρ) (k l : Call π ρ C) : Prop :=
  ∃ fuel, (k.parser.plan env fuel {} k.cursor).Asks (Returns env) l

/-- Whether a call leads to a rule that is called again where it is still at work, if no rule keeps
a memo. -/
def Reenters (env : Environment π ρ) (k : Call π ρ C) (r : Rule) (d : C) : Prop :=
  ReflTransGen (Invokes env) k ⟨.rule r, d⟩ ∧
    TransGen (Invokes env) ⟨.rule r, d⟩ ⟨.rule r, d⟩

/-- The call of a rule leads to that of its parser. -/
theorem invokes_rule {r : Rule} {packrat : Bool} {build : BuildId} {body : Parser π ρ ρ}
    (hr : env.rule r.id = .bound packrat build body) (c : C) :
    Invokes env ⟨.rule r, c⟩ ⟨body, c⟩ := by
  refine ⟨0, ?_⟩
  rw [Parser.plan, Parser.step_rule, hr]
  exact .here

end Call

variable [Cursor C T] [Primitive π] [Primitive.Runs π C] {env : Environment π ρ}

/-- A call that is asked for is an invocation that is reached. -/
theorem Dialogue.Asks.reaches {x : Dialogue π ρ C α} {k : Call π ρ C}
    (h : x.Asks (Call.Returns env) k) : x.Reaches (Invocation.Returns env) k.invocation := by
  induction h with
  | here => exact .here
  | later ho _ ih => exact .later ho ih

/-- What a call leads to, its invocation leads to. -/
theorem Call.Invokes.invocation {k l : Call π ρ C} (h : k.Invokes env l) :
    k.invocation.Invokes env l.invocation := by
  obtain ⟨n, hasks⟩ := h
  exact ⟨n, hasks.reaches⟩

/-! ## Grounded calls -/

/-- The manner of expressions that are grounded in some rules. -/
def Manner.grounded (C : Type) [Primitive.Runs π C] (rules : List RuleId) (errors : Prop) :
    Manner π ρ :=
  ⟨fun scope q => scope = [] ∧ q.All (Parser.Grounded C rules False), True, errors⟩

/-- Whether a call is the run of a grounded expression at a cursor of an opened input. -/
structure Call.Grounded (I : Inputs C) (rules : List RuleId) (k : Call π ρ C) : Prop where
  all : k.parser.All (Parser.Grounded C rules False)
  has : I.Has k.cursor

variable [Cursor.Lawful C] [Primitive.Lawful π C] {I : Inputs C} {rules : List RuleId} {base : C}

/-- A grounded expression asks for nothing but what is grounded, ahead of where it stands. -/
theorem Environment.Packrat.ahead_plan (hrules : env.Packrat C rules False) {p : Parser π ρ α}
    (hp : p.All (Parser.Grounded C rules False)) (errors : Prop) (build : BuildId) (fuel : ℕ)
    {c : C}
    (hc : After base c) :
    (p.plan env fuel ⟨[], build⟩ c).Ahead (.grounded C rules errors) base := by
  by_cases hrule : p.isRule = true
  · cases p with
    | rule r =>
      obtain ⟨build', body, hbound, hbody⟩ := hrules r.id hp.self
      rw [Parser.plan, Parser.step_rule, hbound]
      exact .ask ⟨rfl, hbody⟩ hc fun o ho he => .done (ho.trans hc) he
    | _ => cases hrule
  · exact Parser.ahead_plan_of_grounded hp.self (Bool.eq_false_iff.mpr hrule) (fun h => h.elim)
      (hp.eachPart.imp fun q hq => ⟨rfl, hq⟩) (.inl trivial) hc

/-- What the dialogue of a grounded expression leads to is a call of a grounded expression. -/
theorem Dialogue.Ahead.exists_asks {x : Dialogue π ρ C (Outcome C α)}
    (hx : x.Ahead (.grounded C rules True) base) (hbase : I.Has base) {l : Invocation π ρ C}
    (h : x.Reaches (Invocation.Returns env) l) :
    ∃ k : Call π ρ C, l = k.invocation ∧ x.Asks (Call.Returns env) k ∧ k.Grounded I rules := by
  induction hx with
  | done => cases h
  | stop => cases h
  | @ask β scope origin q c next hq hc _ ih =>
    -- a grounded expression asks outside of all recursive parsers
    obtain ⟨rfl, hall⟩ := hq
    cases h with
    | here => exact ⟨⟨q, c⟩, rfl, .here, hall, hbase.after hc⟩
    | later ho h =>
      obtain ⟨k, rfl, hasks, hk⟩ := ih _ (ho.within (hbase.after hc)) (fun _ => trivial) h
      exact ⟨k, rfl, .later ho hasks, hk⟩

/-- A dialogue about grounded expressions ends with no error, if it is answered with none. -/
theorem Dialogue.Ahead.isError_of_finishes {x : Dialogue π ρ C (Outcome C α)}
    (hx : x.Ahead (.grounded C rules False) base) (hbase : I.Has base) {n : ℕ}
    (hanswer : ∀ {k : Call π ρ C} {o : Outcome C k.α}, k.Grounded I rules →
      k.invocation.ReturnsWithin env n o → o.isError = false)
    {o : Outcome C α} (h : x.Finishes (Invocation.ReturnsWithin env n) o) : o.isError = false := by
  induction hx with
  | done _ he =>
    cases h
    exact Bool.eq_false_iff.mpr he
  | stop => cases h
  | @ask β scope origin q c next hq hc _ ih =>
    obtain ⟨rfl, hall⟩ := hq
    cases h with
    | ask ho h =>
      have hreturns : Invocation.Returns env ⟨[], q, c⟩ _ := ⟨n, ho⟩
      have herror := hanswer (k := ⟨q, c⟩) ⟨hall, hbase.after hc⟩ ho
      exact ih _ (hreturns.within (hbase.after hc)) (fun he => Bool.eq_false_iff.mp herror he) h

namespace Call

variable {k l : Call π ρ C} (hrules : env.Packrat C rules False) (hk : k.Grounded I rules)

include hrules hk

/-- Without memos a grounded call comes to no error. -/
theorem Grounded.isError_of_returns {o : Outcome C k.α} (h : k.Returns env o) :
    o.isError = false := by
  obtain ⟨n, s, hrun⟩ := h
  -- on the bound: without memos, all answers are given within a lesser one
  induction n generalizing k s with
  | zero => cases hrun
  | succ n ih =>
    rw [Parser.run, Parser.eval_succ, Parser.fst_run_attend_plain, Parser.plan_plain] at hrun
    refine (hrules.ahead_plan hk.all False ⟨0⟩ n (After.refl _)).isError_of_finishes hk.has ?_
      (Dialogue.finishes_of_run hrun)
    rintro l o hl ⟨s, hrun⟩
    exact ih hl s hrun

/-- From a grounded call, each step of its invocation is a step to a grounded call. -/
theorem exists_invokes {m : Invocation π ρ C} (h : k.invocation.Invokes env m) :
    ∃ l : Call π ρ C, m = l.invocation ∧ k.Invokes env l ∧ l.Grounded I rules := by
  obtain ⟨n, hreaches⟩ := h
  obtain ⟨l, hm, hasks, hl⟩ :=
    (hrules.ahead_plan hk.all True ⟨0⟩ n (After.refl _)).exists_asks hk.has hreaches
  exact ⟨l, hm, ⟨n, hasks⟩, hl⟩

/-- From a grounded call, each path of its invocation is a path of grounded calls. -/
theorem exists_reflTransGen {m : Invocation π ρ C}
    (h : ReflTransGen (Invocation.Invokes env) k.invocation m) :
    ∃ l : Call π ρ C, m = l.invocation ∧ ReflTransGen (Invokes env) k l ∧ l.Grounded I rules := by
  induction h with
  | refl => exact ⟨k, rfl, .refl, hk⟩
  | tail _ hinvokes ih =>
    obtain ⟨l, rfl, hpath, hl⟩ := ih
    obtain ⟨l', hm, hinvokes', hl'⟩ := exists_invokes hrules hl hinvokes
    exact ⟨l', hm, hpath.tail hinvokes', hl'⟩

/-- Between grounded calls, a path of invocations is a path of calls. -/
theorem transGen_of_invocation (h : TransGen (Invocation.Invokes env) k.invocation l.invocation) :
    TransGen (Invokes env) k l := by
  obtain ⟨m, hinvokes, hpath⟩ := TransGen.head'_iff.mp h
  obtain ⟨k', rfl, hinvokes', hk'⟩ := exists_invokes hrules hk hinvokes
  obtain ⟨l', hl', hpath', -⟩ := exists_reflTransGen hrules hk' hpath
  obtain ⟨-, rfl⟩ := eq_of_invocation_eq hl'
  exact .head' hinvokes' hpath'

/-- Where a grounded call leads to a rule that is still at work there, may be told among calls. -/
theorem reenters_iff {d : C} : k.invocation.Reenters env d ↔ ∃ r, k.Reenters env r d := by
  constructor
  · rintro ⟨bodies, r, -, -, -, hpath, hcycle⟩
    obtain ⟨l, hl, hpath', hgrounded⟩ := exists_reflTransGen hrules hk hpath
    obtain ⟨rfl, rfl⟩ := eq_of_invocation_eq hl
    exact ⟨r, hpath', transGen_of_invocation hrules hgrounded hcycle⟩
  · rintro ⟨r, hpath, hcycle⟩
    have hpath' : ReflTransGen (Invocation.Invokes env) k.invocation ⟨[], .rule r, d⟩ :=
      hpath.lift invocation fun _ _ h => h.invocation
    obtain ⟨l, hl, -, hgrounded⟩ := exists_reflTransGen hrules hk hpath'
    obtain ⟨-, rfl⟩ := eq_of_invocation_eq hl
    -- the rule is one of those that it is grounded in, so it keeps a memo
    obtain ⟨build, body, hr, -⟩ := hrules r.id hgrounded.all.self
    exact ⟨[], r, build, body, hr, hpath', hcycle.lift invocation fun _ _ h => h.invocation⟩

/-- A call that re-enters a rule comes to nothing. -/
theorem Reenters.stuck {r : Rule} {d : C} (h : k.Reenters env r d) (o : Outcome C k.α) :
    ¬k.Returns env o :=
  ((reenters_iff hrules hk).mpr ⟨r, h⟩).stuck o

end Call

end Parsing
