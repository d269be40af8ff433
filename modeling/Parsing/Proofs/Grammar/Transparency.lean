import Parsing.Proofs.Grammar.Independence
import Parsing.Proofs.Parser.Deferral
import Parsing.Proofs.Parser.Unfolding

/-!
# Recursive and deferred parsers are transparent

A recursive parser comes to what its body comes to with the parser itself in place of its name, and
a deferred parser to what the parser that is built for it comes to. Both run the other expression
from a session in which the rules know the same, with a bound that is smaller by one
(`Parser.runsTo_iff_of_run`), so neither parses before this one nor the bound matter.

The names stand for handles, each of which belongs to one recursive parser: so no name that a
recursive parser mentions has another meaning inside of its body (`Parser.KeepsNames`). A recursive
parser that mentions nothing from around it asks for no such thing (`Parser.keepsNames_of_closed`).
-/

namespace Parsing

open Recognizer

namespace Parser

section

variable {π : Type → Type} {C T ρ α : Type} {name : String} {body : Parser π ρ ρ}

/-- A recursive parser that mentions no names keeps those of every expression that it is put
into. -/
theorem keepsNames_of_closed (h : ∀ label, ¬ (recursive name body).Mentions label)
    (p : Parser π ρ α) : p.KeepsNames name body :=
  all_of_forall (fun _ label hlabel => absurd hlabel (h label)) p

variable [Cursor C T] [Primitive π] [Primitive.Runs π C] {env : Environment π ρ} {c : C}
  {s t : Session C ρ}

/-- What a run comes to depends on a session only by its memos. -/
theorem run_of_sameMemos {p : Parser π ρ α} {ctx ctx' : Context π ρ} {o : Outcome C α}
    {fuel : Nat} (h : (p.run env fuel ctx c s).1 = .ok o)
    (hscope : ctx.scope.bodies = ctx'.scope.bodies) (hst : s.SameMemos t) :
    (p.run env fuel ctx' c t).1 = .ok o := by
  obtain ⟨t', ht, -⟩ := p.eval_follows env (Nat.le_refl fuel) hscope c s t hst o _ (Prod.ext h rfl)
  exact congrArg Prod.fst ht

/-- An expression that only runs another one comes to what that one comes to, in any context with
the parsers of its scope. -/
theorem runsTo_iff_of_run {p q : Parser π ρ α} {ctx ctx' : Context π ρ} {scope : Scope π ρ}
    (origin : Origin)
    (h : ∀ n, p.run env (n + 1) ctx c s =
      q.run env n ⟨scope, (s.enter ctx.build origin).1⟩ c (s.enter ctx.build origin).2)
    (hscope : scope.bodies = ctx'.scope.bodies) (o : Outcome C α) :
    p.RunsTo env ctx c s o ↔ q.RunsTo env ctx' c s o := by
  have hmemos : (s.enter ctx.build origin).2.SameMemos s := s.memos_enter ctx.build origin
  constructor
  · rintro ⟨n, hn⟩
    have hrun := hn (n + 1) (Nat.le_succ n)
    rw [h] at hrun
    exact .of_run (run_of_sameMemos hrun hscope hmemos)
  · rintro ⟨n, hn⟩
    refine .of_run (n := n + 1) ?_
    rw [h]
    exact run_of_sameMemos (hn n (Nat.le_refl n)) hscope.symm hmemos.symm

/-- A deferred parser comes to what the parser comes to that is built for it. -/
theorem runsTo_defer_iff (site : Nat) (label : String) (p : Parser π ρ ρ) (ctx : Context π ρ)
    (o : Outcome C ρ) : (defer site label p).RunsTo env ctx c s o ↔ p.RunsTo env ctx c s o :=
  runsTo_iff_of_run (.deferred site label) (fun _ => rfl) rfl o

/-- What a definition comes to does not depend on where it is used. -/
theorem runsTo_define_iff (site : Nat) (label : String) (ctx : Context π ρ) (o : Outcome C ρ) :
    (define site label : Parser π ρ ρ).RunsTo env ctx c s o ↔
      (env.definition label).RunsTo env {} c s o :=
  runsTo_iff_of_run (.deferred site label) (fun _ => rfl) rfl o

/-- A recursive parser comes to what its body comes to, with the parser itself in place of its
name. -/
theorem runsTo_recursive_iff (hbody : body.KeepsNames name body) (ctx : Context π ρ)
    (o : Outcome C ρ) :
    (recursive name body).RunsTo env ctx c s o ↔
      (substitute name (.recursive name body) body).RunsTo env ctx c s o := by
  have hinside : (recursive name body).RunsTo env ctx c s o ↔
      body.RunsTo env ⟨(name, .live ctx.build body) :: ctx.scope, ctx.build⟩ c s o :=
    runsTo_iff_of_run .same (fun _ => rfl) rfl o
  rw [hinside]
  constructor
  · rintro ⟨n, hn⟩
    obtain ⟨t, ht, -⟩ := (eval_unfolded_follows env hbody n ctx.scope ctx.build ctx.build c).1
      s s rfl o _ (Prod.ext (hn n (Nat.le_refl n)) rfl)
    exact .of_run (congrArg Prod.fst ht)
  · rintro ⟨n, hn⟩
    obtain ⟨t, ht, -⟩ := (eval_unfolded_follows env hbody n ctx.scope ctx.build ctx.build c).2
      s s rfl o _ (Prod.ext (hn n (Nat.le_refl n)) rfl)
    exact .of_run (congrArg Prod.fst ht)

/-- Without memos an expression comes to the same from all sessions. -/
theorem runsTo_plain_iff (p : Parser π ρ α) (ctx : Context π ρ) (s t : Session C ρ)
    (o : Outcome C α) : p.RunsTo env.plain ctx c s o ↔ p.RunsTo env.plain ctx c t o := by
  constructor
  · rintro ⟨n, hn⟩
    exact .of_run (run_plain_of_run_plain (Nat.le_refl n) rfl (hn n (Nat.le_refl n)) t)
  · rintro ⟨n, hn⟩
    exact .of_run (run_plain_of_run_plain (Nat.le_refl n) rfl (hn n (Nat.le_refl n)) s)

variable [Cursor.Lawful C] [Primitive.Lawful π C]

/-- Recursive and deferred parsers are transparent:
* a recursive parser comes to what its body comes to with the parser itself in place of its name;
* a deferred parser comes to what the parser that is built for it comes to, and a definition does so
  wherever it is used;
* in any history of runs, which is written down without a change to them, a deferred parser is built
  when it is first parsed and never again, and different ones lead to different builds;
* what is built does not show in a description;
* without memos an outcome depends on no earlier runs, and with memos on no earlier parses. -/
theorem transparent (env : Environment π ρ) (I : Inputs C) :
    (∀ (name : String) (body : Parser π ρ ρ), body.KeepsNames name body →
      ∀ (ctx : Context π ρ) (c : C) (s : Session C ρ) (o : Outcome C ρ),
        (recursive name body).RunsTo env ctx c s o ↔
          (substitute name (.recursive name body) body).RunsTo env ctx c s o) ∧
    (∀ (ctx : Context π ρ) (c : C) (s : Session C ρ) (o : Outcome C ρ),
      (∀ (site : Nat) (label : String) (body : Parser π ρ ρ),
        (defer site label body).RunsTo env ctx c s o ↔ body.RunsTo env ctx c s o) ∧
      ∀ (site : Nat) (label : String),
        (define site label).RunsTo env ctx c s o ↔ (env.definition label).RunsTo env {} c s o) ∧
    (∀ (α : Type) (p : Parser π ρ α) (fuel : Nat) (ctx : Context π ρ) (c : C),
      Erases (p.chronicle env fuel ctx c) (p.eval env fuel ctx c)) ∧
    (∀ (s : Session C ρ) (history : List Deferral), Session.Chronicle π s history →
      (∀ value, (∀ e ∈ history, e.value ≠ value) ∨ Deferral.BuiltOnce value history) ∧
      (∀ label, (s.builds.find? label).getD 0 = history.countP (Deferral.isBuild label)) ∧
      ∀ value value' build, s.deferred.find? value = some build →
        s.deferred.find? value' = some build → value = value') ∧
    (∀ (α : Type) (p : Parser π ρ α) (factory : Nat → String → Parser π ρ ρ → Parser π ρ ρ),
      (p.rewrite (rebuiltBy factory)).describe = p.describe) ∧
    ∀ (α : Type) (p : Parser π ρ α) (ctx : Context π ρ) (c : C) (s t : Session C ρ)
      (o : Outcome C α),
      (p.RunsTo env.plain ctx c s o ↔ p.RunsTo env.plain ctx c t o) ∧
      ∀ g g' : GrammarParser, g.Reachable I env s → g'.Reachable I env t → I.Has c →
        (p.RunsTo env ctx c s o ↔ p.RunsTo env ctx c t o) := by
  refine ⟨fun name body hbody ctx c s o => runsTo_recursive_iff hbody ctx o,
    fun ctx c s o => ⟨fun site label body => runsTo_defer_iff site label body ctx o,
      fun site label => runsTo_define_iff site label ctx o⟩,
    fun α p fuel ctx c => p.erases_chronicle env fuel ctx c,
    fun s history h => ⟨h.builtOnce, h.count_builds, fun _ _ _ => h.distinct⟩,
    fun α p factory => p.describe_rebuilt factory,
    fun α p ctx c s t o => ⟨p.runsTo_plain_iff ctx s t o, fun g g' hs ht hc => ?_⟩⟩
  exact (hs.runsTo_iff hc).trans (ht.runsTo_iff hc).symm

end

/-! ### Brackets without a rule -/

namespace NestedBrackets

/-- An `x` in brackets. What stands in brackets is deferred. -/
def body : Parser TextPrimitive Nat Nat :=
  .or (.map (· + 1) (.between (.char '[') (.defer 0 "inner" (.self "nested")) (.char ']')))
    (.replaced 0 (.char 'x'))

def parser : Parser TextPrimitive Nat Nat :=
  .recursive "nested" body

/-- The body keeps its name, since all its names are its own. -/
theorem body_keepsNames : body.KeepsNames "nested" body :=
  keepsNames_of_closed (by
    simp [Mentions, body, between, andThen, skip, replaced, char, satisfy]) body

open GrammarParser.Brackets (environment inputs)

/-- Two parses of one input, with what happened to deferred parsers. -/
def twice : Session TextReader Nat × List Deferral :=
  let parse := parser.chronicle environment 12 {} (inputs.start ⟨0⟩)
  (parse.run (parse.run ({}, [])).2).2

end NestedBrackets

open NestedBrackets in
open GrammarParser.Brackets (environment inputs) in
/-- The second outcome is that of a parse after the rule of the same grammar was used. -/
theorem transparent_nestedBrackets :
    (substitute "nested" parser body).RunsTo environment {} (inputs.start ⟨0⟩) {}
      (.success 1 ⟨['[', 'x', ']'], [], 3, .offset 3, ⟨0⟩⟩) ∧
    parser.RunsTo environment {} (inputs.start ⟨0⟩)
      ((rule GrammarParser.Brackets.rule).run environment 12 {} (inputs.start ⟨0⟩) {}).2
      (.success 1 ⟨['[', 'x', ']'], [], 3, .offset 3, ⟨0⟩⟩) ∧
    Deferral.BuiltOnce (⟨0⟩, 0) twice.2 := by
  obtain ⟨hunfold, -, -, honce, -, hhistory⟩ := transparent environment inputs
  have hparse : parser.RunsTo environment {} (inputs.start ⟨0⟩) {}
      (.success 1 ⟨['[', 'x', ']'], [], 3, .offset 3, ⟨0⟩⟩) :=
    .of_run (n := 12) rfl
  have hrun : ((rule GrammarParser.Brackets.rule).run environment 12 {} (inputs.start ⟨0⟩) {}).1 =
      .ok (.success 1 ⟨['[', 'x', ']'], [], 3, .offset 3, ⟨0⟩⟩) := rfl
  have hrule : GrammarParser.Brackets.grammar.Reachable inputs environment
      ((rule GrammarParser.Brackets.rule).run environment 12 {} (inputs.start ⟨0⟩) {}).2 :=
    .run (.start rfl) ⟨0, rfl⟩ (Prod.ext hrun rfl)
  have htwice : Session.Chronicle TextPrimitive twice.1 twice.2 :=
    .run (.describe (.run (.start (s := {}) rfl rfl) environment parser 12 {} (inputs.start ⟨0⟩))
      parser) environment parser 12 {} (inputs.start ⟨0⟩)
  refine ⟨(hunfold "nested" body body_keepsNames {} _ {} _).mp hparse, ?_, ?_⟩
  · exact ((hhistory Nat parser {} _ {} _ _).2 GrammarParser.Brackets.grammar
      GrammarParser.Brackets.grammar (.start rfl) hrule ⟨0, rfl⟩).mp hparse
  · exact ((honce _ _ htwice).1 (⟨0⟩, 0)).resolve_left fun hnever =>
      hnever (.parsed (⟨0⟩, 0)) (by decide) rfl

end Parser

end Parsing
