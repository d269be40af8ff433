import Parsing.Proofs.Grammar.Plain
import Parsing.Proofs.Parser.Memo

/-!
# Memos refine plain rules

If an expression comes to an outcome when no rule keeps a memo, then it comes to the same outcome
when rules do keep memos, whatever was parsed before.

What a rule remembers of a cursor agrees with whatever the rule comes to without a memo there, if it
comes to anything (`Environment.Agrees`); the rules that are at work are those of the present run.
A run that ends without memos needs ever smaller bounds for the runs inside of it, so it never meets
a rule at work, whose own run has not ended within that bound (`Environment.Late`). That is
`eval_follows_plain`.
-/

namespace Parsing

open Recognizer Cursor

/-- Two dialogues of which one refines the other are followed alike ahead of a cursor, if the
answers are. -/
theorem Dialogue.Refines.follows_ahead {π : Type → Type} {C T ρ σ τ α : Type} [Cursor C T]
    {S : σ → τ → Prop} {base : C}
    {answer : {β : Type} → Scope π ρ → Origin → Parser π ρ β → Recognizer (Effect σ) C β}
    {answer' : {β : Type} → Scope π ρ → Origin → Parser π ρ β → Recognizer (Effect τ) C β}
    (h : ∀ {β : Type} {scope scope' : Scope π ρ} {origin origin'} {q : Parser π ρ β} {c : C},
      scope.bodies = scope'.bodies → After base c →
        Follows S (·.Within c) (answer scope origin q c) (answer' scope' origin' q c))
    {x y : Dialogue π ρ C (Outcome C α)} (hxy : x.Refines y) (hx : x.Ahead .any base) :
    Follows S (·.Within base) (x.run answer) (y.run answer') := by
  induction hxy with
  | done a =>
    cases hx with
    | done ha => exact .pure ha
  | outOfFuel y => exact .halt _ _
  | stop halt => exact .halt _ _
  | ask hscope _ ih =>
    cases hx with
    | ask _ hc hnext =>
      exact (h hscope hc).bind fun o ho => ih o (hnext o ho fun _ => trivial)

/-- A rule with a memo follows a run that its parser follows, if what may be remembered is what that
run comes to, and if the rule is at work only where that run comes to nothing. -/
theorem Follows.memoized {C T ρ σ : Type} [Cursor C T] [Cursor.Lawful C] {I : Inputs C}
    {res : RuleId → C → Outcome C ρ → Prop} {pend : RuleId → C → Prop} {r : RuleId} {c : C}
    {x : Effect σ (Outcome C ρ)} {body : Recognizer (Effect (Session C ρ)) C ρ} (hc : I.Has c)
    (hres : ∀ {s o s'}, x.run s = (.ok o, s') → ∀ o', res r c o' → o = o')
    (hpend : pend r c → ∀ s o s', x.run s ≠ (.ok o, s'))
    (hbody : Follows (fun _ t => t.Known I res fun r' d => pend r' d ∨ (r' = r ∧ d = c)) (res r c) x
      (body c)) :
    Follows (fun _ t => t.Known I res pend) (res r c) x (memoized r body c) := by
  intro s t ht o s' hrun
  rcases hentry : t.lookup r (key c) with _ | _ | o'
  · obtain ⟨t', ht', hknown, ho⟩ := hbody s _ (ht.call hc hentry) o s' hrun
    refine ⟨t'.resolveCall r (key c) o, by rw [run_memoized_of_none _ hentry, ht'],
      hknown.resolveCall hc ho ?_, ho⟩
    rintro r' d (hP | hnew) hne
    · exact hP
    · exact absurd hnew hne
  · exact absurd hrun (hpend (ht.pending hc hentry) s o s')
  · have ho' : res r c o' := ht.resolved hc hentry
    obtain rfl := hres hrun o' ho'
    exact ⟨_, run_memoized_of_resolved _ hentry, ht.call_of_lookup hentry, ho'⟩

variable {π : Type → Type} {C T ρ α : Type} [Cursor C T] [Primitive π] [Primitive.Runs π C]
  {env : Environment π ρ} {I : Inputs C}

/-- Whether an outcome is what a rule comes to at a cursor without memos, if it comes to
anything. -/
def Environment.Agrees (env : Environment π ρ) (id : RuleId) (c : C) (o : Outcome C ρ) : Prop :=
  o.Within c ∧ ∀ r : Rule, r.id = id → ∀ o', (Parser.rule r).Returns env c o' → o' = o

/-- Whether some rules come to no outcome at some cursors within a bound, if no rule keeps a
memo. -/
def Environment.Late (env : Environment π ρ) (fuel : Nat) (P : RuleId → C → Prop) : Prop :=
  ∀ (r : Rule) (c : C), P r.id c → ∀ ctx (s : Session C ρ) o,
    ((Parser.rule r).run env.plain fuel ctx c s).1 ≠ .ok o

/-- What comes to no outcome within a bound comes to none within a lesser one. -/
theorem Environment.Late.of_le {P : RuleId → C → Prop} {n m : Nat} (h : env.Late m P)
    (hnm : n ≤ m) : env.Late n P :=
  fun r c hP ctx s o hrun => h r c hP ctx s o (Parser.run_plain_of_run_plain hnm rfl hrun s)

/-- One more late rule. -/
theorem Environment.Late.insert {P : RuleId → C → Prop} {n : Nat} (h : env.Late n P) {r : Rule}
    {packrat : Bool} {build : BuildId} {body : Parser π ρ ρ}
    (hr : env.rule r.id = .bound packrat build body) {c : C}
    (hlate : ∀ ctx (s : Session C ρ) o, ((Parser.rule r).run env.plain n ctx c s).1 ≠ .ok o) :
    env.Late n fun id d => P id d ∨ (id = r.id ∧ d = c) := by
  rintro r' d (hP | ⟨hid, rfl⟩) ctx s o hrun
  · exact h r' d hP ctx s o hrun
  · refine hlate ctx s o ?_
    rw [Parser.run, Parser.eval_rule_congr hid.symm (Parser.rule_plain_of_bound hr) n ctx ctx]
    exact hrun

variable [Cursor.Lawful C] [Primitive.Lawful π C]

/-- What an expression comes to without memos, it comes to with memos that agree with that, if the
rules at work are late. -/
theorem Parser.eval_follows_plain {P : RuleId → C → Prop} {n m : Nat} (hnm : n ≤ m)
    (hP : env.Late n P) {ctx ctx' : Context π ρ} (hscope : ctx.scope.bodies = ctx'.scope.bodies)
    (p : Parser π ρ α) {c : C} (hc : I.Has c) :
    Follows (fun _ t : Session C ρ => t.Known I env.Agrees P) (·.Within c)
      (p.eval env.plain n ctx c) (p.eval env m ctx' c) := by
  -- on the bound without memos: a run ends within it only if all runs inside end within a lesser
  -- one
  induction n generalizing α P m ctx ctx' c with
  | zero => exact .halt _ _
  | succ n ih =>
    obtain ⟨m, rfl⟩ := Nat.exists_eq_add_of_le' (Nat.le_trans (Nat.le_add_left 1 n) hnm)
    have hnm' : n ≤ m := Nat.le_of_succ_le_succ hnm
    have hlate : env.Late n P := hP.of_le (Nat.le_succ n)
    have below {P : RuleId → C → Prop} (hP : env.Late n P) :
        Follows (fun _ t : Session C ρ => t.Known I env.Agrees P) (·.Within c)
          ((p.plan env n ctx c).run (answer env.plain n ctx.build))
          ((p.plan env m ctx' c).run (answer env m ctx'.build)) := by
      refine (refines_plan env hnm' hscope p c).follows_ahead (fun hscope' hd => ?_)
        (ahead_plan env n ctx p (After.refl c))
      exact .update_bind (fun s t ht => ht.of_memos (t.memos_enter _ _))
        fun _ _ => ih hnm' hP hscope' _ (hc.after hd)
    rw [eval_succ, eval_succ, plan_plain]
    refine Follows.attend (fun name ht => ht.of_memos rfl) (fun hrule => ?_) (below hlate)
    cases p with
    | rule r =>
      rw [attend_rule_plain, attend_rule]
      split
      case h_2 => exact below hlate
      case h_1 build body hr =>
        have hreturn {s s' : Session C ρ} {o : Outcome C ρ}
            (hrun : (((rule r).plan env n ctx c).run (answer env.plain n ctx.build)).run s =
              (.ok o, s')) : ((rule r).run env.plain (n + 1) ctx c s).1 = .ok o := by
          rw [Parser.run, eval_succ, plan_plain, attend_rule_plain, hrun]
        by_cases hn : ∃ ctx, ∃ s : Session C ρ, ∃ o, ((rule r).run env.plain n ctx c s).1 = .ok o
        · -- a lesser bound is enough, so what is said of that bound will do
          intro s t ht o s' hrun
          obtain ⟨ctx₁, s₁, o₁, hrun₁⟩ := hn
          have ho : o₁ = o :=
            (returns_of_run_rule rfl hr hrun₁).unique (returns_of_run_rule rfl hr (hreturn hrun))
          subst ho
          rw [Parser.run, eval_rule_congr rfl (rule_plain_of_bound hr) n ctx₁ ctx] at hrun₁
          obtain ⟨t', ht', hknown, hwithin⟩ := ih (Nat.le_succ_of_le hnm') hlate hscope (rule r)
            hc s₁ t ht o₁ _ (Prod.ext hrun₁ rfl)
          rw [eval_succ, attend_rule, hr] at ht'
          exact ⟨t', ht', hknown, hwithin⟩
        · -- the rule is late itself, and its parser runs within the bound
          have hlate' := hlate.insert hr (c := c) fun ctx s o hrun => hn ⟨ctx, s, o, hrun⟩
          refine (Follows.memoized hc (fun hrun o' ho' => ?_) (fun hwork s o s' hrun => ?_) ?_).imp
            fun o ho => ho.1
          · exact ho'.2 r rfl _ (returns_of_run_rule rfl hr (hreturn hrun))
          · exact hP r c hwork ctx s o (hreturn hrun)
          · intro s t ht o s' hrun
            obtain ⟨t', ht', hknown, hwithin⟩ := below hlate' s t ht o s' hrun
            refine ⟨t', ht', hknown, hwithin, fun r' hid o' h' => ?_⟩
            exact (h'.rule_congr hid (hid ▸ hr)).unique (returns_of_run_rule rfl hr (hreturn hrun))
    | _ => cases hrule

end Parsing
