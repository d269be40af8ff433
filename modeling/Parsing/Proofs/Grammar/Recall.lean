import Parsing.Proofs.Grammar.Invocations
import Parsing.Proofs.Grammar.Packrat
import Parsing.Proofs.Parser.Errors

/-!
# What rules remember

A rule remembers of a cursor what it comes to without memos, or the error of a rule that is called
where it is at work (`Environment.Recalls`), and expressions come to nothing else (`eval_comes`). A
rule is at work only above what its parser leads to (`Invocation.Below`); so a rule that is found at
work is one that leads to itself. In particular what is remembered agrees with the outcomes without
memos (`Session.Known.agrees`).
-/

namespace Parsing

open Recognizer Cursor Relation

variable {π : Type → Type} {C T ρ α : Type} [Cursor C T] [Primitive π] [Primitive.Runs π C]
  {env : Environment π ρ} {I : Inputs C} {base c : C} {P : RuleId → C → Prop}

/-- Whether an outcome is what a rule is to remember of a cursor. -/
def Environment.Recalls (env : Environment π ρ) (id : RuleId) (c : C) (o : Outcome C ρ) : Prop :=
  o.Within c ∧ ∀ r : Rule, r.id = id → ∀ bodies, Invocation.Comes env ⟨bodies, .rule r, c⟩ o

/-- Whether an invocation is one that the parsers of some rules with memos lead to. -/
def Invocation.Below (env : Environment π ρ) (k : Invocation π ρ C) (P : RuleId → C → Prop) :
    Prop :=
  ∀ r e, P r e → ∃ build body, env.rule r = .bound true build body ∧
    ReflTransGen (Invokes env) ⟨[], body, e⟩ k

namespace Invocation.Below

variable {k l : Invocation π ρ C}

/-- Where no rules are asked for, every invocation is below. -/
theorem of_false (k : Invocation π ρ C) : k.Below env fun _ _ => False :=
  fun _ _ h => h.elim

/-- What is below some rules is below more of them. -/
theorem mono {P' : RuleId → C → Prop} (h : k.Below env P) (hP : ∀ r e, P' r e → P r e) :
    k.Below env P' :=
  fun r e he => h r e (hP r e he)

/-- What an invocation below some rules leads to is below them as well. -/
theorem tail (h : k.Below env P) (hkl : k.Invokes env l) : l.Below env P := by
  intro r e he
  obtain ⟨build, body, hr, hpath⟩ := h r e he
  exact ⟨build, body, hr, hpath.tail hkl⟩

/-- A rule leads to its parser, and so does all that leads to the rule. -/
theorem insert {bodies : List (String × Option (Parser π ρ ρ))} {r : Rule} {build : BuildId}
    {body : Parser π ρ ρ} (h : Below env ⟨bodies, .rule r, c⟩ P)
    (hr : env.rule r.id = .bound true build body) :
    Below env ⟨[], body, c⟩ fun r' e => P r' e ∨ (r' = r.id ∧ e = c) := by
  rintro r' e (he | ⟨rfl, rfl⟩)
  · exact h.tail (invokes_rule hr bodies c) r' e he
  · exact ⟨build, body, hr, .refl⟩

/-- Rules that are at work above an invocation that does not return do not return either. -/
theorem late (h : k.Below env P) (hk : k.Stuck env) (n : ℕ) : env.Late n P := by
  intro r e he ctx s o hrun
  obtain ⟨build, body, hr, hpath⟩ := h r.id e he
  exact (invokes_rule hr ctx.scope.bodies e).stuck (stuck_of_reflTransGen hpath hk) o
    ⟨n, .of_run hrun⟩

end Invocation.Below

/-! ## Runs -/

/-- A dialogue that is answered with such outcomes ends with such an outcome: either all answers
were the outcomes without memos, or an error came from one invocation and is passed on. -/
theorem Dialogue.Ahead.yields_comes (env : Environment π ρ) {σ : Type} {S : σ → Prop}
    {answer : {β : Type} → Scope π ρ → Origin → Parser π ρ β → Recognizer (Effect σ) C β}
    {x : Dialogue π ρ C (Outcome C α)} (hx : x.Ahead .any base) (hfaithful : x.Faithful)
    (h : ∀ {β : Type} scope origin (q : Parser π ρ β) {d : C},
      x.Reaches (Invocation.Returns env) ⟨scope.bodies, q, d⟩ → After base d →
        Yields S (fun o => o.Within d ∧ Invocation.Comes env ⟨scope.bodies, q, d⟩ o)
          (answer scope origin q d)) :
    Yields S (fun o => o.Within base ∧
        (x.Finishes (Invocation.Returns env) o ∨ ∃ k d, x.Reaches (Invocation.Returns env) k ∧
          o = .noSuccess (leftRecursion d) ∧ k.Reenters env d))
      (x.run answer) := by
  induction hx with
  | done ho _ => exact .pure ⟨ho, .inl (.done _)⟩
  | stop => exact .halt fun _ _ => trivial
  | @ask β scope origin q c next _ hc _ ih =>
    cases hfaithful with
    | ask error faithful =>
      refine (h scope origin q .here hc).bind fun o ho => ?_
      -- an answer is the outcome without memos, or the error of a rule that is re-entered
      rcases ho with ⟨hwithin, hreturns | ⟨d, rfl, hreenters⟩⟩
      · -- the answer is the one without memos, so the dialogue goes on as it does without them
        refine (ih o hwithin (fun _ => trivial) (faithful o)
          fun scope origin q d hreaches => h scope origin q (.later hreturns hreaches)).imp ?_
          fun _ _ _ => trivial
        rintro o' ⟨hwithin', hfinishes | ⟨k, d, hreaches, ho', hreenters⟩⟩
        · exact ⟨hwithin', .inl (.ask hreturns hfinishes)⟩
        · exact ⟨hwithin', .inr ⟨k, d, .later hreturns hreaches, ho', hreenters⟩⟩
      · -- the answer is an error, and the dialogue ends with it
        rw [error (leftRecursion d) rfl]
        exact .pure ⟨Outcome.within_noSuccess _ _, .inr ⟨_, d, .here, rfl, hreenters⟩⟩

variable [Cursor.Lawful C] [Primitive.Lawful π C]

/-- From memos that hold such outcomes in one input, expressions come to such outcomes only in that
input, if every rule that is at work there is one that leads to the present invocation. -/
theorem Parser.eval_comes_of {res : RuleId → C → Outcome C ρ → Prop} {i : InputId}
    (hres : ∀ {r c o}, I.Has c → input c = i → (res r c o ↔ env.Recalls r c o)) (n : ℕ)
    (ctx : Context π ρ) (p : Parser π ρ α) (hc : I.Has c) (hi : input c = i)
    (hP : Invocation.Below env ⟨ctx.scope.bodies, p, c⟩ fun r e => input e = i ∧ P r e) :
    Yields (fun s : Session C ρ => s.Known I res P)
      (fun o => o.Within c ∧ Invocation.Comes env ⟨ctx.scope.bodies, p, c⟩ o)
      (p.eval env n ctx c) := by
  -- On the bound, for all rules that may be at work: inside of a rule there is one more of them.
  induction n generalizing α P ctx c with
  | zero => exact .halt fun _ _ => trivial
  | succ n ih =>
    have below : Yields (fun s : Session C ρ => s.Known I res P)
        (fun o => o.Within c ∧ Invocation.Comes env ⟨ctx.scope.bodies, p, c⟩ o)
        ((p.plan env n ctx c).run (answer env n ctx.build)) := by
      refine Abides.imp (Dialogue.Ahead.yields_comes env (ahead_plan env n ctx p (After.refl c))
        (p.faithful_plan env n ctx c) fun scope origin q d hreaches hd => ?_) ?_
        fun _ _ _ => trivial
      · refine .update_bind (fun s hs => hs.of_memos (s.memos_enter _ _)) fun build => ?_
        exact ih ⟨scope, build⟩ q (hc.after hd) (hd.input_eq.trans hi)
          (hP.tail (.of_reaches hreaches))
      · rintro o ⟨hwithin, hfinishes | ⟨k, d, hreaches, rfl, hreenters⟩⟩
        · exact ⟨hwithin, .inl (.of_finishes hfinishes)⟩
        · exact ⟨hwithin, .inr ⟨d, rfl, hreenters.of_invokes (.of_reaches hreaches)⟩⟩
    rw [eval_succ]
    refine .attend (fun s name hs => hs.of_memos rfl) (fun hrule => ?_) below
    cases p with
    | rule r =>
      rw [attend_rule]
      split
      case h_2 => exact below
      case h_1 build body hr =>
        have hP' : Invocation.Below env ⟨[], body, c⟩
            fun r' e => input e = i ∧ (P r' e ∨ (r' = r.id ∧ e = c)) :=
          (hP.insert hr).mono fun r' e he => he.2.imp_left (⟨he.1, ·⟩)
        refine .intro (fun s o s' hs hrun => ?_) fun _ _ _ _ _ => trivial
        obtain ⟨hknown, ho⟩ := known_of_run_memoized hs hc hrun fun s₁ hs₁ hbody => by
          rw [run_plan_rule hr] at hbody
          obtain ⟨hknown, hwithin, hcomes⟩ := (ih ⟨[], build⟩ body hc hi hP').of_ok hs₁ hbody
          exact ⟨hknown, (hres hc hi).mpr
            ⟨hwithin, fun r' hid bodies => hcomes.rule (hid ▸ hr) bodies⟩⟩
        refine ⟨hknown, ?_⟩
        rcases ho with ho | ⟨hpend, rfl⟩
        · obtain ⟨hwithin, hcomes⟩ := (hres hc hi).mp ho
          exact ⟨hwithin, hcomes r rfl _⟩
        · -- the rule is at work, so it has led to itself
          obtain ⟨build', body', hr', hpath⟩ := hP r.id c ⟨hi, hpend⟩
          refine ⟨Outcome.within_noSuccess _ _, .inr ⟨c, rfl, _, r, build', body', hr', .refl, ?_⟩⟩
          exact .head' (Invocation.invokes_rule hr' _ c) hpath
    | _ => cases hrule

/-- From memos of such outcomes expressions come to such outcomes only, if every rule that is at
work is one that leads to the present invocation. -/
theorem Parser.eval_comes (n : ℕ) (ctx : Context π ρ) (p : Parser π ρ α) (hc : I.Has c)
    (hP : Invocation.Below env ⟨ctx.scope.bodies, p, c⟩ P) :
    Yields (fun s : Session C ρ => s.Known I env.Recalls P)
      (fun o => o.Within c ∧ Invocation.Comes env ⟨ctx.scope.bodies, p, c⟩ o)
      (p.eval env n ctx c) :=
  p.eval_comes_of (fun _ _ => Iff.rfl) n ctx hc rfl (hP.mono fun _ _ he => he.2)

/-- What is to be remembered agrees with the outcomes without memos. -/
theorem Session.Known.agrees {s : Session C ρ} (h : s.Known I env.Recalls P) :
    s.Known I env.Agrees P where
  resolved hc hentry := by
    obtain ⟨hwithin, hcomes⟩ := h.resolved hc hentry
    refine ⟨hwithin, fun r hid o' hreturns => ?_⟩
    have hreturns' : Invocation.Returns env ⟨[], .rule r, _⟩ o' := hreturns
    exact Invocation.Comes.unique hc (.inl hreturns') (hcomes r hid [])
  pending := h.pending

end Parsing
