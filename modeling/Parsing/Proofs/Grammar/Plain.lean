import Parsing.Proofs.Grammar.Building
import Parsing.Proofs.Parser.Refinement

/-!
# Without memos

The same rules with the same parsers, none of them keeping a memo (`Environment.plain`). A grammar
that is built by the same steps but without memos has that environment (`Grammar.Built.plain`,
`Registry.environment_plain`), and it is finished if and only if the grammar with memos is, to the
same parser (`Grammar.finish_plain`). What an expression comes to there depends on nothing else: not
on the session, nor on the bound, as long as it is not reached (`Parser.Returns`, `Returns.unique`).
-/

namespace Parsing

open Recognizer

/-- The binding without a memo. -/
def Binding.plain {π : Type → Type} {ρ : Type} : Binding π ρ → Binding π ρ
  | .bound _ build body => .bound false build body
  | .unbound => .unbound
  | .dropped => .dropped

/-- The environment in which no rule keeps a memo. -/
def Environment.plain {π : Type → Type} {ρ : Type} (env : Environment π ρ) : Environment π ρ :=
  { env with rule := fun r => (env.rule r).plain }

/-! ## Building a grammar without memos -/

section Building

variable {π : Type → Type} {ρ : Type}

/-- The slot of a rule that keeps no memo. -/
def RuleSlot.plain (slot : RuleSlot π ρ) : RuleSlot π ρ :=
  { slot with packrat := false }

/-- The registry in which no rule keeps a memo. -/
def Registry.plain (reg : Registry π ρ) : Registry π ρ :=
  ⟨reg.slots.map RuleSlot.plain⟩

/-- The grammar whose rules keep no memos. -/
def Grammar.plain (g : Grammar) : Grammar :=
  { g with packrat := false }

/-- Without memos a rule stands for the same parser. -/
theorem Registry.binding_plain (reg : Registry π ρ) (r : RuleId) :
    reg.plain.binding r = (reg.binding r).plain := by
  unfold Registry.binding Registry.plain
  rw [List.getElem?_map]
  cases reg.slots[r.number]? with
  | none => rfl
  | some slot =>
    rcases slot with ⟨name, packrat, _ | ⟨build, body⟩, _ | _⟩ <;> rfl

/-- The registry without memos has the environment without memos. -/
theorem Registry.environment_plain (reg : Registry π ρ) (definition : String → Parser π ρ ρ) :
    (⟨reg.plain.binding, definition⟩ : Environment π ρ) =
      Environment.plain ⟨reg.binding, definition⟩ := by
  rw [Environment.plain]
  congr
  exact funext reg.binding_plain

/-- Declaring a rule without memos leads to the same, without memos. -/
theorem Grammar.declare_plain (g : Grammar) (name : String) (reg : Registry π ρ) :
    g.plain.declare name reg.plain =
      (g.declare name reg).map fun (rule, g, reg) => (rule, g.plain, reg.plain) := by
  unfold Grammar.declare
  change (if g.rules.any _ then _ else _) = _
  split
  · rfl
  · simp [Except.map, Grammar.plain, Registry.plain, RuleSlot.plain]

/-- Without memos, a change to a rule that leaves the memos alone leads to the same. -/
theorem Registry.modify_plain (reg : Registry π ρ) (r : RuleId)
    {f : RuleSlot π ρ → RuleSlot π ρ} (hf : ∀ slot, f slot.plain = (f slot).plain) :
    reg.plain.modify r f = (reg.modify r f).plain := by
  refine congrArg Registry.mk (List.ext_getElem? fun i => ?_)
  simp only [Registry.plain, Registry.modify, List.getElem?_modify, List.getElem?_map]
  cases reg.slots[i]? with
  | none => rfl
  | some slot =>
    simp only [Option.map_eq_map, Option.map_some]
    split
    · exact congrArg some (hf slot)
    · rfl

/-- Binding a rule without memos leads to the same, without memos. -/
theorem Registry.bind_plain (reg : Registry π ρ) (r : Rule) (build : BuildId)
    (body : Parser π ρ ρ) :
    reg.plain.bind r build body = (reg.bind r build body).map Registry.plain := by
  unfold Registry.bind
  rw [binding_plain]
  cases reg.binding r.id with
  | unbound =>
    exact congrArg Except.ok (reg.modify_plain r.id fun _ => rfl)
  | dropped | bound => rfl

/-- Dropping rules without memos leads to the same, without memos. -/
theorem Registry.drop_plain (reg : Registry π ρ) (rules : List Rule) :
    reg.plain.drop rules = (reg.drop rules).plain := by
  unfold Registry.drop
  induction rules generalizing reg with
  | nil => rfl
  | cons r rules ih =>
    have hstep :=
      reg.modify_plain r.id (f := fun slot => { slot with dropped := true }) fun _ => rfl
    rw [List.foldl_cons, List.foldl_cons, hstep]
    exact ih _

/-- The steps that build a grammar build one without memos, if they are taken without memos. -/
theorem Grammar.Built.plain {packrat : Bool} {g : Grammar} {reg : Registry π ρ}
    (h : g.Built packrat reg) : g.plain.Built false reg.plain := by
  induction h with
  | start reg => exact .start reg.plain
  | @declare g _ reg _ name _ _ hrun ih =>
    exact .declare ih ((g.declare_plain name reg).trans (congrArg _ hrun))
  | @bind _ reg _ r build body _ hrun ih =>
    exact .bind ih ((reg.bind_plain r build body).trans (congrArg _ hrun))
  | @other _ other _ reg _ name _ _ hrun ih =>
    exact .other ih ((other.declare_plain name reg).trans (congrArg _ hrun))
  | @drop _ reg rules _ ih =>
    rw [← reg.drop_plain]
    exact .drop rules ih

/-- A grammar is finished, or not, whether its rules keep memos or not. -/
theorem Grammar.finish_plain (g : Grammar) (start : Rule) (reg : Registry π ρ) :
    g.plain.finish start reg.plain = g.finish start reg := by
  have hbound (r : Rule) : reg.plain.isBound r = reg.isBound r := by
    unfold Registry.isBound
    rw [Registry.binding_plain]
    cases reg.binding r.id <;> rfl
  unfold Grammar.finish
  simp only [hbound]
  rfl

end Building

/-! ## Runs without memos -/

namespace Parser

variable {π : Type → Type} {C T ρ α : Type} [Cursor C T] {env : Environment π ρ}

/-- Without memos there are no books of a rule. -/
theorem attend_rule_plain (r : Rule) (q : Recognizer (Effect (Session C ρ)) C ρ) :
    (rule r).attend env.plain q = q := by
  have hrule : env.plain.rule r.id = (env.rule r.id).plain := rfl
  rw [attend_rule, hrule]
  cases env.rule r.id <;> rfl

/-- Without memos no books change what an expression comes to. -/
theorem fst_run_attend_plain (p : Parser π ρ α) (q : Recognizer (Effect (Session C ρ)) C α) (c : C)
    (s : Session C ρ) : ((p.attend env.plain q c).run s).1 = ((q c).run s).1 := by
  by_cases hrule : p.isRule = true
  · cases p with
    | rule r => rw [attend_rule_plain]
    | _ => cases hrule
  · exact fst_run_attend (Bool.eq_false_iff.mpr hrule) q c s

variable [Primitive π] [Primitive.Runs π C]

/-- Without memos an expression asks for what it asks for with them. -/
theorem plan_plain (env : Environment π ρ) (fuel : Nat) (ctx : Context π ρ) (p : Parser π ρ α) :
    p.plan env.plain fuel ctx = (p.plan env fuel ctx : Recognizer (Dialogue π ρ C) C α) := by
  cases p with
  | rule r =>
    have hrule : env.plain.rule r.id = (env.rule r.id).plain := rfl
    rw [plan, plan, step_rule, step_rule, hrule]
    cases env.rule r.id <;> rfl
  | _ => rfl

/-- Without memos an outcome does not depend on the session. -/
theorem eval_plain_follows (env : Environment π ρ) {fuel fuel' : Nat} (hfuel : fuel ≤ fuel')
    {ctx ctx' : Context π ρ} (hscope : ctx.scope.bodies = ctx'.scope.bodies) (p : Parser π ρ α)
    (c : C) : Follows (fun _ _ : Session C ρ => True) (fun _ => True) (p.eval env.plain fuel ctx c)
      (p.eval env.plain fuel' ctx' c) := by
  refine eval_follows_of (fun _ _ _ _ _ => trivial) (fun p c h => ?_) hfuel hscope p c
  refine Follows.attend (fun _ _ => trivial) (fun hp => ?_) h
  cases p with
  | rule r =>
    rw [attend_rule_plain, attend_rule_plain]
    exact h
  | _ => cases hp

/-- Without memos an answer does not depend on the session, on the bound, or on the build. -/
theorem answer_plain_follows (env : Environment π ρ) {fuel fuel' : Nat} (hfuel : fuel ≤ fuel')
    (build build' : BuildId) {scope scope' : Scope π ρ} (hscope : scope.bodies = scope'.bodies)
    (origin origin' : Origin) (q : Parser π ρ α) (c : C) :
    Follows (fun _ _ : Session C ρ => True) (fun _ => True)
      (answer env.plain fuel build scope origin q c)
      (answer env.plain fuel' build' scope' origin' q c) :=
  .update_bind (fun _ _ _ => trivial) fun _ _ => eval_plain_follows env hfuel hscope q c

/-- What a run without memos comes to, every run with a bound that is as great comes to from any
session. -/
theorem run_plain_of_run_plain {fuel fuel' : Nat} (hfuel : fuel ≤ fuel') {ctx ctx' : Context π ρ}
    (hscope : ctx.scope.bodies = ctx'.scope.bodies) {p : Parser π ρ α} {c : C}
    {s : Session C ρ} {o : Outcome C α} (h : (p.run env.plain fuel ctx c s).1 = .ok o)
    (t : Session C ρ) : (p.run env.plain fuel' ctx' c t).1 = .ok o := by
  obtain ⟨t', ht, -⟩ := eval_plain_follows env hfuel hscope p c s t trivial o
    (p.run env.plain fuel ctx c s).2 (Prod.ext h rfl)
  exact congrArg Prod.fst ht

/-- Whether an expression comes to an outcome if no rule keeps a memo, outside of all recursive
parsers. -/
def Returns (env : Environment π ρ) (p : Parser π ρ α) (c : C) (o : Outcome C α) : Prop :=
  ∃ fuel, ∃ s : Session C ρ, (p.run env.plain fuel {} c s).1 = .ok o

/-- Without memos an expression comes to one outcome at most. -/
theorem Returns.unique {p : Parser π ρ α} {c : C} {o o' : Outcome C α} (h : p.Returns env c o)
    (h' : p.Returns env c o') : o = o' := by
  obtain ⟨n, s, hn⟩ := h
  obtain ⟨m, t, hm⟩ := h'
  have hleft := run_plain_of_run_plain (Nat.le_max_left n m) rfl hn s
  have hright := run_plain_of_run_plain (Nat.le_max_right n m) rfl hm s
  exact Except.ok.inj (hleft.symm.trans hright)

/-- A rule with a parser runs it outside of all recursive parsers that the rule is called in, and
whatever its name. -/
theorem eval_rule_congr {r r' : Rule} (hid : r.id = r'.id) {packrat : Bool} {build : BuildId}
    {body : Parser π ρ ρ} (hr : env.rule r.id = .bound packrat build body) (fuel : Nat)
    (ctx ctx' : Context π ρ) :
    ((rule r).eval env fuel ctx : Recognizer (Effect (Session C ρ)) C ρ) =
      (rule r').eval env fuel ctx' := by
  cases fuel with
  | zero => rfl
  | succ n =>
    simp only [eval, step_rule, attend_rule, ← hid, hr]
    rfl

omit [Primitive π] in
/-- Without memos a rule stands for its parser still. -/
theorem rule_plain_of_bound {r : RuleId} {packrat : Bool} {build : BuildId} {body : Parser π ρ ρ}
    (hr : env.rule r = .bound packrat build body) :
    env.plain.rule r = .bound false build body :=
  congrArg Binding.plain hr

/-- What a run of a rule comes to, the rule returns, whatever it is called. -/
theorem returns_of_run_rule {r r' : Rule} (hid : r.id = r'.id) {packrat : Bool} {build : BuildId}
    {body : Parser π ρ ρ} (hr : env.rule r.id = .bound packrat build body) {fuel : Nat}
    {ctx : Context π ρ} {c : C} {s : Session C ρ} {o : Outcome C ρ}
    (h : ((rule r).run env.plain fuel ctx c s).1 = .ok o) : (rule r').Returns env c o := by
  refine ⟨fuel, s, ?_⟩
  rw [Parser.run, ← eval_rule_congr hid (rule_plain_of_bound hr) fuel ctx {}]
  exact h

/-- Rules of one identity return the same. -/
theorem Returns.rule_congr {r r' : Rule} (hid : r.id = r'.id) {packrat : Bool} {build : BuildId}
    {body : Parser π ρ ρ} (hr : env.rule r.id = .bound packrat build body) {c : C}
    {o : Outcome C ρ} (h : (rule r).Returns env c o) : (rule r').Returns env c o := by
  obtain ⟨n, s, hrun⟩ := h
  exact returns_of_run_rule hid hr hrun

end Parser

end Parsing
