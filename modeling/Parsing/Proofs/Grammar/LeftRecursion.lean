import Parsing.Proofs.Grammar.Calls
import Parsing.Proofs.Grammar.Independence
import Parsing.Proofs.Grammar.Termination

/-!
# Left recursion is what does not end

Of rules that keep memos and are grounded in each other, without aborts, a rule either comes to what
it comes to without memos, which is no error, or to the error of a rule that called itself where it
was still at work (`Parser.Detects`): that is what expressions come to at all, said of calls
(`Parser.detects_iff`). Since a rule that is re-entered never returns without memos, it can be only
one of the two, and always the same one, whatever is remembered from earlier parses
(`Detects.unique`).
-/

namespace Parsing

open Recognizer Cursor Relation

variable {π : Type → Type} {C T ρ α : Type} [Cursor C T] [Primitive π] [Primitive.Runs π C]
  {env : Environment π ρ} {I : Inputs C} {rules : List RuleId} {c : C}

/-- Whether an outcome is the one without memos, and no error, or the error of a rule that is
re-entered. -/
def Parser.Detects (env : Environment π ρ) (p : Parser π ρ α) (c : C) (o : Outcome C α) : Prop :=
  (p.Returns env c o ∧ o.isError = false) ∨
    ∃ r d, o = .noSuccess (leftRecursion d) ∧ Call.Reenters env ⟨p, c⟩ r d

namespace Parser

variable [Cursor.Lawful C] [Primitive.Lawful π C] (hrules : env.Packrat C rules False)
  {p : Parser π ρ α} {o o' : Outcome C α} (hall : p.All (Parser.Grounded C rules False))

include hrules hall

/-- For grounded expressions, what is detected is what an invocation comes to. -/
theorem detects_iff (hc : I.Has c) :
    p.Detects env c o ↔ Invocation.Comes env ⟨[], p, c⟩ o := by
  have hk : Call.Grounded I rules ⟨p, c⟩ := ⟨hall, hc⟩
  have hreenters (d : C) : Invocation.Reenters env ⟨[], p, c⟩ d ↔
      ∃ r, Call.Reenters env ⟨p, c⟩ r d := Call.reenters_iff hrules hk
  constructor
  · rintro (⟨hreturns, -⟩ | ⟨r, d, ho, h⟩)
    · exact .inl hreturns
    · exact .inr ⟨d, ho, (hreenters d).mpr ⟨r, h⟩⟩
  · rintro (hreturns | ⟨d, ho, h⟩)
    · exact .inl ⟨hreturns, hk.isError_of_returns hrules hreturns⟩
    · obtain ⟨r, h⟩ := (hreenters d).mp h
      exact .inr ⟨r, d, ho, h⟩

/-- There is one such outcome at most. -/
theorem Detects.unique (hc : I.Has c) (h : p.Detects env c o) (h' : p.Detects env c o') : o = o' :=
  Invocation.Comes.unique hc ((detects_iff hrules hall hc).mp h)
    ((detects_iff hrules hall hc).mp h')

end Parser

/-! ## Parsing -/

namespace GrammarParser

variable [Cursor.Lawful C] [Primitive.Lawful π C] {g : GrammarParser} {s : Session C ρ}

/-- In every state that parses lead to a rule comes to such an outcome. -/
theorem Reachable.exists_run_detects (hrules : env.Packrat C rules False) (h : Reachable I env g s)
    {r : Rule} (hr : r.id ∈ rules) (hc : I.Has c) (ctx : Context π ρ) :
    ∃ o, (Parser.rule r).Detects env c o ∧
      ∃ n, ∀ m, n ≤ m → ((Parser.rule r).run env m ctx c s).1 = .ok o := by
  obtain ⟨o, n, hrun⟩ := exists_run_rule hrules h.visited.forward hr ctx hc
  obtain ⟨build, body, hbound, -⟩ := hrules r.id hr
  have hrun' : ((Parser.rule r).run env n {} c s).1 = .ok o := by
    rw [← hrun n (Nat.le_refl n), Parser.run, Parser.run,
      Parser.eval_rule_congr rfl hbound n ctx {}]
  have hcomes : Invocation.Comes env ⟨[], .rule r, c⟩ o := (h.runsTo_iff hc).mp (.of_run hrun')
  exact ⟨o, (Parser.detects_iff hrules (p := .rule r) hr hc).mpr hcomes, n, hrun⟩

/-- A rule comes to one and the same outcome in all states that parses lead to. The outcome is the
error of left recursion if and only if the rule comes to none without memos, which is the case if
and only if it leads to a rule that is called again where it is still at work; and wherever that is,
is the location of the error. -/
theorem Reachable.exists_run_leftRecursion (hrules : env.Packrat C rules False) {r : Rule}
    (hr : r.id ∈ rules) (hc : I.Has c) :
    ∃ o : Outcome C ρ,
      (∀ (g : GrammarParser) (s : Session C ρ), Reachable I env g s → ∀ ctx,
        ∃ n, ∀ m, n ≤ m → ((Parser.rule r).run env m ctx c s).1 = .ok o) ∧
      ((∃ l, o = .noSuccess (.error "left recursion detected" l)) ↔
        ∀ o', ¬(Parser.rule r).Returns env c o') ∧
      ((∀ o', ¬(Parser.rule r).Returns env c o') ↔
        ∃ r' d, Call.Reenters env ⟨.rule r, c⟩ r' d) ∧
      ∀ r' d, Call.Reenters env ⟨.rule r, c⟩ r' d →
        o = .noSuccess (.error "left recursion detected" (Cursor.location d)) := by
  have hk : Call.Grounded I rules (⟨.rule r, c⟩ : Call π ρ C) := ⟨hr, hc⟩
  have hstart : Reachable I env ⟨r, [], none⟩ {} := .start rfl
  -- the outcome from an empty memo is that from every other one, since it is told by the plain runs
  obtain ⟨o, hdetects, -⟩ := hstart.exists_run_detects hrules hr hc {}
  have hlocation {r' d} (h : Call.Reenters env ⟨.rule r, c⟩ r' d) :
      o = .noSuccess (leftRecursion d) :=
    hdetects.unique hrules (p := .rule r) hr hc (Or.inr ⟨r', d, rfl, h⟩)
  refine ⟨o, fun g s h ctx => ?_, ?_, ?_, fun r' d h => hlocation h⟩
  · obtain ⟨o', hdetects', n, hrun⟩ := h.exists_run_detects hrules hr hc ctx
    rw [hdetects.unique hrules (p := .rule r) hr hc hdetects']
    exact ⟨n, hrun⟩
  · rcases hdetects with ⟨hreturns, herror⟩ | ⟨r', d, rfl, hreenters⟩
    · constructor
      · rintro ⟨l, rfl⟩
        cases herror
      · exact fun h => absurd hreturns (h o)
    · exact ⟨fun _ => hreenters.stuck hrules hk, fun _ => ⟨_, rfl⟩⟩
  · rcases hdetects with ⟨hreturns, -⟩ | ⟨r', d, rfl, hreenters⟩
    · constructor
      · exact fun h => absurd hreturns (h o)
      · rintro ⟨r', d, hreenters⟩
        exact hreenters.stuck hrules hk
    · exact ⟨fun _ => ⟨r', d, hreenters⟩, fun _ => hreenters.stuck hrules hk⟩

/-! ### Tangled rules -/

namespace Tangle

/-- Both rules lead to `left` before anything is consumed. -/
theorem reenters_left :
    Call.Reenters environment ⟨.rule left, Brackets.inputs.start ⟨0⟩⟩ left
      (Brackets.inputs.start ⟨0⟩) := by
  let c := Brackets.inputs.start ⟨0⟩
  have hleft : Call.Invokes environment ⟨.rule left, c⟩ ⟨leftBody, c⟩ := Call.invokes_rule rfl c
  have hfirst : Call.Invokes environment ⟨leftBody, c⟩
      ⟨.andThen .spaces (.rule right), c⟩ := ⟨0, .here⟩
  have hspaces : Call.Returns environment ⟨.spaces, c⟩ (.success "" c) := ⟨1, {}, rfl⟩
  have hright : Call.Invokes environment ⟨.andThen .spaces (.rule right), c⟩
      ⟨.rule right, c⟩ := ⟨0, .later hspaces .here⟩
  have hbody : Call.Invokes environment ⟨.rule right, c⟩ ⟨rightBody, c⟩ := Call.invokes_rule rfl c
  have hmap : Call.Invokes environment ⟨rightBody, c⟩
      ⟨.andThen (.not (.char '+')) (.rule left), c⟩ := ⟨0, .here⟩
  have hplus : Call.Returns environment ⟨.not (.char '+'), c⟩ (.success () c) := ⟨3, {}, rfl⟩
  have hagain : Call.Invokes environment ⟨.andThen (.not (.char '+')) (.rule left), c⟩
      ⟨.rule left, c⟩ := ⟨0, .later hplus .here⟩
  exact ⟨.refl,
    .head hleft (.head hfirst (.head hright (.head hbody (.head hmap (.single hagain)))))⟩

end Tangle

open Tangle in
/-- The two rules call each other before anything is read, so that both report left recursion. -/
theorem Reachable.exists_run_leftRecursion_tangle :
    (∀ o, ¬(Parser.rule left).Returns environment (Brackets.inputs.start ⟨0⟩) o) ∧
      ∀ g s, Reachable Brackets.inputs environment g s → ∃ n, ∀ m, n ≤ m →
        ((Parser.rule left).run environment m {} (Brackets.inputs.start ⟨0⟩) s).1 =
          .ok (.noSuccess (.error "left recursion detected" (.offset 0))) := by
  obtain ⟨o, hrun, -, hstuck, hlocation⟩ := Reachable.exists_run_leftRecursion
    (packrat_environment False) (r := left) List.mem_cons_self (Brackets.inputs.has_start ⟨0⟩)
  refine ⟨hstuck.mpr ⟨left, _, reenters_left⟩, fun g s h => ?_⟩
  rw [hlocation left _ reenters_left] at hrun
  exact hrun g s h {}

end GrammarParser

end Parsing
