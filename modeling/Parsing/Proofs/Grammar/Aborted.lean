import Parsing.Parser.Text
import Parsing.Proofs.Grammar.Completion
import Parsing.Proofs.Grammar.Recall
import Parsing.Proofs.Parser.Stopped

/-!
# Parses that were aborted

While a grammar is built its rules may be used already, and a parse that calls a rule without a
parser is aborted. Then the rules that were at work go on being so (`Parser.pending_of_run_rule`),
and report left recursion when they are called again at the same place, although no call of them is
under way (`Draft.Tried.leftRecursion_not_reentered`). In all other inputs rules remember what they
come to, whatever is declared and bound later, and no rule is at work between runs
(`Draft.Tried.trusty`): there left recursion is reported of rules only that are called where they
still are at work (`Draft.Tried.run_comes`).
-/

namespace Parsing

open Recognizer Cursor

variable {π : Type → Type} {C T ρ α : Type}

/-! ## Expressions that do not report left recursion themselves -/

/-- Whether an expression, apart from its parts, does not abort as if it were left recursive. -/
def Parser.Candid : Parser π ρ α → Prop
  | .abort expected => expected ≠ "left recursion detected"
  | _ => True

/-- Ending without reports of left recursion, where no rule keeps a memo. -/
def Conduct.candid (π : Type → Type) (ρ : Type) : Conduct π ρ where
  asks scope p := scope.All Parser.Candid ∧ p.All Parser.Candid
  stops _ := True
  errors text := text ≠ "left recursion detected"
  memos _ := False
  stops_outOfFuel := trivial
  stops_brokenCharacter := trivial

/-- Candid expressions end without a report of left recursion, where no rule keeps a memo. -/
theorem Conduct.KeptBy.of_candid {env : Environment π ρ} (henv : env.All Parser.Candid) :
    (Conduct.candid π ρ).KeptBy env.plain where
  part hp _ := hp.2.eachPart.imp fun _ hq => ⟨hp.1, hq⟩
  abort hp := hp.2
  recursive _ hp := ⟨hp.1.cons hp.2.2, hp.2.2⟩
  self {scope name} hp := by
    split
    · exact ne_of_beq_false rfl
    · exact ne_of_beq_false rfl
    · exact hp.1.of_startingAt ‹_›
  define _ := ⟨Scope.all_nil, henv.definition _⟩
  rule {scope r} _ := by
    have hrule : env.plain.rule r.id = (env.rule r.id).plain := rfl
    rw [hrule]
    rcases hbound : env.rule r.id with _ | _ | ⟨packrat, build, body⟩
    · exact (droppedText_ne (by decide) r.name).symm
    · trivial
    · exact ⟨⟨Scope.all_nil, henv.rule hbound⟩, fun h => Bool.noConfusion h⟩

section Runs

variable [Cursor C T] [Primitive π] [Primitive.Runs π C] {env : Environment π ρ} {I : Inputs C}
  {c : C}

/-- Without memos candid expressions do not report left recursion. -/
theorem Invocation.Returns.ne_leftRecursion [Primitive.Lawful π C]
    [Primitive.StopsInCharacters π C] (henv : env.All Parser.Candid) {p : Parser π ρ α}
    (hp : p.All Parser.Candid) {o : Outcome C α} (h : Invocation.Returns env ⟨[], p, c⟩ o)
    (l : Location) : o ≠ .noSuccess (.error "left recursion detected" l) := by
  rintro rfl
  obtain ⟨n, s, hrun⟩ := h
  have hguides := p.eval_guides (.of_candid henv) n {} ⟨Scope.all_nil, hp⟩ c
  exact (hguides.of_ok (fun _ h => h.elim) (Prod.ext hrun rfl)).2 rfl rfl

/-! ## What rules know apart from some inputs -/

/-- Whether rules remember what they come to, and are not at work, except in some inputs. -/
def Session.Trusty (I : Inputs C) (env : Environment π ρ) (spoiled : InputId → Prop)
    (s : Session C ρ) : Prop :=
  s.Known I (fun r c o => ¬spoiled (input c) → env.Recalls r c o) fun _ c => spoiled (input c)

/-- Whether rules know of some place in an input. -/
def Session.KnowsOf (s : Session C ρ) (i : InputId) : Prop :=
  ∃ r key e, key.1 = i ∧ s.lookup r key = some e

namespace Session.Trusty

variable {spoiled spoiled' : InputId → Prop} {s t : Session C ρ}

/-- It matters only of which inputs anything is known. -/
theorem narrow (h : s.Trusty I env spoiled) :
    s.Trusty I env fun i => spoiled i ∧ s.KnowsOf i where
  resolved hc hentry hclean := h.resolved hc hentry fun hspoiled =>
    hclean ⟨hspoiled, _, _, _, rfl, hentry⟩
  pending hc hentry := ⟨h.pending hc hentry, _, _, _, rfl, hentry⟩

/-- What changes in a spoiled input does not matter. -/
theorem of_elsewhere {i : InputId} (h : s.Trusty I env spoiled)
    (hst : ∀ r key e, key.1 ≠ i → t.lookup r key = some e → s.lookup r key = some e)
    (hspoiled : ∀ j, spoiled j → spoiled' j) (hi : spoiled' i) : t.Trusty I env spoiled' where
  resolved {d r o} hd hentry hclean := by
    refine h.resolved hd (hst r (key d) _ ?_ hentry) fun h => hclean (hspoiled _ h)
    rintro rfl
    exact hclean hi
  pending {d r} hd hentry := by
    by_cases hdi : input d = i
    · rwa [hdi]
    · exact hspoiled _ (h.pending hd (hst r (key d) _ hdi hentry))

/-- In an input that is not spoiled a run that comes to an outcome comes to the right one. -/
theorem of_run [Cursor.Lawful C] [Primitive.Lawful π C] (h : s.Trusty I env spoiled) (hc : I.Has c)
    (hclean : ¬spoiled (input c)) {p : Parser π ρ α} {fuel : Nat} {ctx : Context π ρ}
    {o : Outcome C α} {s' : Session C ρ} (hrun : p.run env fuel ctx c s = (.ok o, s')) :
    s'.Trusty I env spoiled ∧ Invocation.Comes env ⟨ctx.scope.bodies, p, c⟩ o := by
  have hres {r : RuleId} {d : C} {o : Outcome C ρ} (_ : I.Has d) (hd : input d = input c) :
      (¬spoiled (input d) → env.Recalls r d o) ↔ env.Recalls r d o :=
    imp_iff_right (hd ▸ hclean)
  have hyields : Yields (fun s : Session C ρ => s.Trusty I env spoiled)
      (fun o => o.Within c ∧ Invocation.Comes env ⟨ctx.scope.bodies, p, c⟩ o)
      (p.eval env fuel ctx c) :=
    p.eval_comes_of hres fuel ctx hc rfl fun r e he => absurd (he.1 ▸ he.2) hclean
  obtain ⟨htrusty, -, hcomes⟩ := hyields.of_ok h hrun
  exact ⟨htrusty, hcomes⟩

end Session.Trusty

end Runs

/-! ## Rules that were left at work -/

section Rules

variable [Cursor C T] [Primitive π] [Primitive.Runs π C] {env : Environment π ρ} {I : Inputs C}
  {c : C} {r : Rule} {build : BuildId} {body : Parser π ρ ρ} {s s' : Session C ρ} {fuel : Nat}
  {ctx : Context π ρ} {halt : Halt}

/-- A rule with a memo that was called, and whose parser was stopped, is still at work. -/
theorem Parser.pending_of_run_rule [Cursor.Lawful C] [Primitive.Lawful π C]
    (hr : env.rule r.id = .bound true build body) (hs : s.Forward I) (hc : I.Has c)
    (hhalt : halt ≠ .outOfFuel) (hrun : (rule r).run env fuel ctx c s = (.error halt, s')) :
    s'.lookup r.id (key c) = some .pending := by
  cases fuel with
  | zero =>
    cases hrun
    exact absurd rfl hhalt
  | succ n =>
    rw [Parser.run, eval_rule_of_bound hr] at hrun
    rcases hentry : s.lookup r.id (key c) with _ | _ | o
    · rw [run_memoized_of_none _ hentry] at hrun
      have hcalled : (s.call r.id (key c)).2.lookup r.id (key c) = some .pending := by
        rw [Session.lookup_call, if_pos rfl, if_pos rfl, hentry]
        rfl
      -- the mark is set before the parser runs, and nothing inside of that run takes it away
      have hpending := (hs.call hc r.id).pending_run body env n ⟨[], build⟩ hc rfl hcalled
      rw [Parser.run] at hpending
      rcases hbody : (body.eval env n ⟨[], build⟩ c).run (s.call r.id (key c)).2 with ⟨_ | o, t⟩
      all_goals rw [hbody] at hrun hpending
      · cases hrun
        exact hpending
      · cases hrun
    · rw [run_memoized_of_pending _ hentry] at hrun
      cases hrun
    · rw [run_memoized_of_resolved _ hentry] at hrun
      cases hrun

/-- A rule that is marked as being at work reports left recursion, whether it is at work or not. -/
theorem Parser.run_rule_of_pending (hr : env.rule r.id = .bound true build body)
    (h : s.lookup r.id (key c) = some .pending) (n : Nat) (ctx : Context π ρ) :
    ((rule r).run env (n + 1) ctx c s).1 = .ok (.noSuccess (leftRecursion c)) := by
  rw [Parser.run, eval_rule_of_bound hr, run_memoized_of_pending _ h]

/-- A rule that has no parser itself stops before anything is written down. -/
theorem Parser.run_rule_of_unbound (hr : env.rule r.id = .unbound) (fuel : Nat)
    (ctx : Context π ρ) : ((rule r).run env fuel ctx c s).2 = s := by
  cases fuel with
  | zero => rfl
  | succ n =>
    rw [Parser.run, eval_succ, attend_rule, hr, Parser.plan, step_rule, hr]
    rfl

end Rules

/-! ## Drafts in use -/

namespace Draft

variable [Cursor C T] [Primitive π] [Primitive.Runs π C] {d : Draft π ρ} {I : Inputs C}
  {definition : String → Parser π ρ ρ} {s : Session C ρ} {spoiled : InputId → Prop}

/-- Whether all that may be run refers to rules that were declared. -/
abbrev Refers (d : Draft π ρ) (definition : String → Parser π ρ ρ) (p : Parser π ρ α) : Prop :=
  (d.environment definition).Refers d.Knows (fun _ => True) ∧
    p.All (Parser.Refers d.Knows fun _ => True)

/-- The states that building a grammar and using its rules meanwhile lead to. Inputs are spoiled in
which a run was aborted, as long as rules know anything of them. -/
inductive Tried (I : Inputs C) (definition : String → Parser π ρ ρ) :
    Draft π ρ → Session C ρ → (InputId → Prop) → Prop where
  /-- At first no rule knows anything. -/
  | start {d : Draft π ρ} {s : Session C ρ} (h : s.memos = {}) :
    Tried I definition d s fun _ => False
  | step {d : Draft π ρ} {s : Session C ρ} {spoiled : InputId → Prop}
    (h : Tried I definition d s spoiled) (step : Step π ρ) :
    Tried I definition (d.next step) s spoiled
  | parse {d : Draft π ρ} {s s' : Session C ρ} {spoiled : InputId → Prop} {α : Type}
    {p : Parser π ρ α} {fuel : Nat} {build : BuildId} {c : C} {o : Outcome C α}
    (h : Tried I definition d s spoiled) (hp : d.Refers definition p) (hc : I.Has c)
    (hrun : p.run (d.environment definition) fuel { build } c s = (.ok o, s')) :
    Tried I definition d s' fun i => spoiled i ∧ s'.KnowsOf i
  | abort {d : Draft π ρ} {s s' : Session C ρ} {spoiled : InputId → Prop} {α : Type}
    {p : Parser π ρ α} {fuel : Nat} {build : BuildId} {c : C} {halt : Halt}
    (h : Tried I definition d s spoiled) (hc : I.Has c)
    (hrun : p.run (d.environment definition) fuel { build } c s = (.error halt, s')) :
    Tried I definition d s' fun i => (spoiled i ∨ i = input c) ∧ s'.KnowsOf i
  /-- Other things may happen, such as aborted runs, if they leave alone what rules know. -/
  | of_memos {d : Draft π ρ} {s t : Session C ρ} {spoiled : InputId → Prop}
    (h : Tried I definition d s spoiled) (hst : t.memos = s.memos) : Tried I definition d t spoiled

variable [Cursor.Lawful C] [Primitive.Lawful π C]

/-- What is certain however runs end holds in all these states. -/
theorem Tried.kept (h : d.Tried I definition s spoiled) : s.Forward I ∧ s.Placed I := by
  induction h with
  | start h => exact ⟨.of_memos .empty h, .empty h⟩
  | step _ _ ih => exact ih
  | parse _ _ hc hrun ih | abort _ hc hrun ih =>
    cases congrArg Prod.snd hrun
    exact ⟨ih.1.run _ _ _ _ hc, ih.2.run ih.1 _ _ _ _ hc⟩
  | of_memos _ hst ih => exact ⟨ih.1.of_memos hst, ih.2.of_memos hst⟩

variable [Primitive.StopsInCharacters π C]

/-- Whatever is declared and bound later, rules remember what they come to, and are not at work,
except in the inputs that are spoiled. -/
theorem Tried.trusty (h : d.Tried I definition s spoiled) {env : Environment π ρ}
    (henv : (d.environment definition).Completes env d.Knows) : s.Trusty I env spoiled := by
  induction h with
  | start h => exact .of_memos .empty h
  | @step d _ _ _ step ih =>
    exact ih ((d.completes_next step definition).trans (fun _ hr => hr.next step) henv)
  | @parse _ _ _ spoiled _ _ _ _ c _ h hp hc hrun ih =>
    by_cases hclean : spoiled (input c)
    · cases congrArg Prod.snd hrun
      exact ((ih henv).of_elsewhere
        (fun _ _ _ hi => h.kept.1.lookup_of_lookup_run _ _ _ _ hc hi) (fun _ h => h) hclean).narrow
    · exact ((ih henv).of_run hc hclean (henv.run_eq hp.1 Scope.all_nil hp.2 hrun)).1.narrow
  | abort h hc hrun ih =>
    cases congrArg Prod.snd hrun
    exact ((ih henv).of_elsewhere
      (fun _ _ _ hi => h.kept.1.lookup_of_lookup_run _ _ _ _ hc hi) (fun _ => .inl)
      (.inr rfl)).narrow
  | of_memos _ hst ih => exact (ih henv).of_memos hst

/-- Between runs no rule is at work but in spoiled inputs. In all others a run comes to what it
comes to without memos, or to a report of left recursion, and then it leads to a rule with a memo
that is called where it still is at work. But a rule with a parser whose parse was aborted is still
at work at that place, and as long as no other input is read it reports left recursion there. -/
theorem Tried.run_comes (h : d.Tried I definition s spoiled) :
    (∀ r key, (s.memo r).find? key = some .pending → spoiled key.1) ∧
    (∀ (α : Type) (p : Parser π ρ α) (fuel : Nat) (build : BuildId) (c : C) (o : Outcome C α),
      I.Has c → ¬spoiled (input c) →
      (p.run (d.environment definition) fuel { build } c s).1 = .ok o →
        Invocation.Comes (d.environment definition) ⟨[], p, c⟩ o ∧
        ((d.environment definition).All Parser.Candid → p.All Parser.Candid →
          ∀ l, o = .noSuccess (.error "left recursion detected" l) →
            ∃ e, location e = l ∧
              Invocation.Reenters (d.environment definition) ⟨[], p, c⟩ e)) ∧
    (∀ (r : Rule) (fuel : Nat) (build : BuildId) (c : C) (name : String) (s' : Session C ρ),
      I.Has c → (Parser.rule r).run (d.environment definition) fuel { build } c s =
        (.error (.unboundRule name), s') →
      (d.registry.binding r.id = .unbound → s' = s) ∧
      ∀ build' body, d.registry.binding r.id = .bound true build' body →
        (s'.memo r.id).find? (key c) = some .pending) ∧
    ∀ (r : Rule) (c : C), I.Has c → (s.memo r.id).find? (key c) = some .pending →
      (∀ (α : Type) (p : Parser π ρ α) (fuel : Nat) (build : BuildId) (e : C), I.Has e →
        input e = input c →
        (((p.run (d.environment definition) fuel { build } e s).2).memo r.id).find? (key c) =
          some .pending) ∧
      ∀ build' body (n : Nat) (build : BuildId), d.registry.binding r.id = .bound true build' body →
        ((Parser.rule r).run (d.environment definition) (n + 1) { build } c s).1 =
          .ok (.noSuccess (.error "left recursion detected" (location c))) := by
  obtain ⟨hforward, hplaced⟩ := h.kept
  have htrusty : s.Trusty I (d.environment definition) spoiled := h.trusty (.refl _ _)
  refine ⟨fun r key hentry => ?_, fun α p fuel build c o hc hclean hrun => ?_,
    fun r fuel build c name s' hc hrun => ⟨fun hr => ?_, fun build' body hr => ?_⟩,
    fun r c hc hentry => ⟨fun α p fuel build e he hi => ?_, fun build' body n build hr => ?_⟩⟩
  · -- a mark is left behind in spoiled inputs only
    obtain ⟨-, c, hc, rfl⟩ := hplaced r key _ hentry
    exact htrusty.pending hc (hplaced.lookup_eq hentry)
  · -- in a clean input no mark misleads, so that left recursion is reported where a rule is re-
    -- entered
    obtain ⟨-, hcomes⟩ := htrusty.of_run hc hclean (Prod.ext hrun rfl)
    refine ⟨hcomes, fun henv hp l ho => ?_⟩
    rcases hcomes with hreturns | ⟨e, ho', hreenters⟩
    · exact absurd ho (hreturns.ne_leftRecursion henv hp l)
    · rw [ho] at ho'
      cases ho'
      exact ⟨e, rfl, hreenters⟩
  · exact (congrArg Prod.snd hrun).symm.trans (Parser.run_rule_of_unbound hr fuel _)
  · exact (Session.lookup_eq_some_iff.mp
      (Parser.pending_of_run_rule hr hforward hc Halt.noConfusion hrun)).2
  · exact (Session.lookup_eq_some_iff.mp
      (hforward.pending_run p _ fuel { build } he hi (hplaced.lookup_eq hentry))).2
  · exact Parser.run_rule_of_pending hr (hplaced.lookup_eq hentry) n _

/-! ### A rule that is bound too late -/

namespace Unfinished

def whole : Rule :=
  ⟨⟨0⟩, "whole"⟩

def item : Rule :=
  ⟨⟨1⟩, "item"⟩

/-- The rule `whole` refers to a rule that is not bound yet. -/
def draft : Draft TextPrimitive Nat :=
  [.declare "whole", .declare "item", .bind whole ⟨0⟩ (.rule item)].foldl next
    ⟨{ packrat := true }, {}⟩

def undefined : String → Parser TextPrimitive Nat Nat :=
  fun _ => .fail "<undefined>"

/-- Every input is one digit. -/
def inputs : Inputs TextReader :=
  ⟨fun i => .ofChars ['1'] (.offset 0) i, fun _ => rfl⟩

/-- After `whole` was tried for the first input. -/
def aborted : Session TextReader Nat :=
  ((Parser.rule whole).run (draft.environment undefined) 4 {} (inputs.start ⟨0⟩) {}).2

/-- Trying `whole` halts at the rule that is not bound, and leaves its mark behind. -/
theorem run_whole :
    (Parser.rule whole).run (draft.environment undefined) 4 {} (inputs.start ⟨0⟩) {} =
      (.error (.unboundRule "item"), aborted) := rfl

/-- Only the first input is spoiled by the attempt. -/
theorem tried_aborted : draft.Tried inputs undefined aborted fun i =>
    (False ∨ i = ⟨0⟩) ∧ aborted.KnowsOf i :=
  .abort (.start rfl) (inputs.has_start ⟨0⟩) run_whole

/-- The rule `item` is bound to a digit then. -/
def late : Draft TextPrimitive Nat :=
  draft.next (.bind item ⟨1⟩ (.replaced 0 (.char '1')))

/-- Or else it is bound to `whole`, which is left recursive then. -/
def circle : Draft TextPrimitive Nat :=
  draft.next (.bind item ⟨1⟩ (.rule whole))

/-- The circle refers to rules that were declared. -/
theorem refers_circle : circle.Refers undefined (.rule item) := by
  refine ⟨⟨fun {r} _ _ _ _ hbound => ?_, fun _ => trivial⟩, true, _, rfl, rfl⟩
  rcases r with ⟨⟨_ | _ | n⟩, name⟩ <;> cases hbound
  · exact ⟨true, _, rfl, rfl⟩
  · exact ⟨true, _, rfl, rfl⟩

/-- After `item` was parsed from the second input, too. -/
def parsed : Session TextReader Nat :=
  ((Parser.rule item).run (circle.environment undefined) 4 {} (inputs.start ⟨1⟩) aborted).2

end Unfinished

open Unfinished in
/-- In the second input left recursion is reported of rules that call each other. -/
theorem Tried.run_comes_circle :
    ((Parser.rule whole).run (circle.environment undefined) 4 {} (inputs.start ⟨1⟩) parsed).1 =
      .ok (.noSuccess (.error "left recursion detected" (.offset 0))) ∧
    ∃ e, location e = .offset 0 ∧ Invocation.Reenters (circle.environment undefined)
      ⟨[], .rule whole, inputs.start ⟨1⟩⟩ e := by
  have hcandid : (circle.environment undefined).All Parser.Candid := by
    refine ⟨fun {id _ _ _} hbound => ?_, fun _ => trivial⟩
    rcases id with ⟨_ | _ | n⟩ <;> cases hbound
    · trivial
    · trivial
  have hclean :
      ¬(((False ∨ (⟨1⟩ : InputId) = ⟨0⟩) ∧ aborted.KnowsOf ⟨1⟩) ∧ parsed.KnowsOf ⟨1⟩) := by
    rintro ⟨⟨h | h, -⟩, -⟩
    · exact h
    · cases h
  have hparsed := (tried_aborted.step (.bind item ⟨1⟩ (.rule whole))).parse refers_circle
    (inputs.has_start ⟨1⟩) (show (Parser.rule item).run (circle.environment undefined) 4 {} _ _ =
      (.ok _, parsed) from rfl)
  obtain ⟨-, hcomes, -⟩ := run_comes hparsed
  obtain ⟨-, hreenters⟩ := hcomes Nat (.rule whole) 4 ⟨0⟩ (inputs.start ⟨1⟩) _
    (inputs.has_start ⟨1⟩) hclean rfl
  exact ⟨rfl, hreenters hcandid trivial _ rfl⟩

open Unfinished in
/-- In the first input left recursion is reported though no rule is re-entered. -/
theorem Tried.leftRecursion_not_reentered :
    (∃ spoiled, late.Tried inputs undefined aborted spoiled) ∧
    (aborted.memo whole.id).find? (⟨0⟩, 0) = some .pending ∧
    ((Parser.rule whole).run (late.environment undefined) 4 {} (inputs.start ⟨0⟩) aborted).1 =
      .ok (.noSuccess (.error "left recursion detected" (.offset 0))) ∧
    ∀ e, ¬Invocation.Reenters (late.environment undefined)
      ⟨[], .rule whole, inputs.start ⟨0⟩⟩ e := by
  refine ⟨⟨_, tried_aborted.step _⟩, rfl, rfl, fun e h => ?_⟩
  have hreturns : Invocation.Returns (late.environment undefined)
      ⟨[], .rule whole, inputs.start ⟨0⟩⟩ (.success 0 ⟨['1'], [], 1, .offset 1, ⟨0⟩⟩) :=
    ⟨4, {}, rfl⟩
  exact h.stuck _ hreturns

end Draft

end Parsing
