import Parsing.Proofs.Grammar.Work
import Parsing.Proofs.Parser.Ledger

/-!
# Rules that are used beside their grammar

The parser of a grammar forgets everything when it turns to another input, and it knows only the
inputs of its own parses. A rule that is used directly turns to another input by itself, and the
grammar does not notice. So after a parse by the grammar, a rule that the parse did not call may
still know of the input that it was used for (`Interleaved.not_one_input`). What rules know is a
matter of the visits since everything was forgotten (`Interleaved.parse_entries`): that is one
input just if each rule was last called in the input of the parse.
-/

namespace Parsing

open Recognizer Cursor

/-! ## The last call of a rule -/

namespace Visit

variable {r : RuleId} {visits : List Visit} {key : MemoKey}

/-- The place of a call of a rule. -/
def key? (r : RuleId) : Visit → Option MemoKey
  | .called r' key => if r' = r then some key else none
  | .invoked _ _ => none

/-- The place at which a rule was last called. -/
def last? (r : RuleId) (visits : List Visit) : Option MemoKey :=
  (visits.filterMap (key? r)).getLast?

/-- Only a call of the rule has a place. -/
theorem key?_eq_some_iff {v : Visit} : key? r v = some key ↔ v = .called r key := by
  cases v with
  | called r' key' =>
    rw [key?, Visit.called.injEq]
    split
    · rename_i hr
      rw [Option.some.injEq, and_iff_right hr]
    · rename_i hr
      exact iff_of_false (Option.some_ne_none key).symm fun h => hr h.1
  | invoked r' key' => exact iff_of_false (Option.some_ne_none key).symm Visit.noConfusion

/-- The last call is the one that was added last, if it is one of that rule. -/
theorem last?_append_singleton (v : Visit) :
    last? r (visits ++ [v]) = (key? r v).or (last? r visits) := by
  rw [last?, List.filterMap_append, List.getLast?_append]
  rcases hkey : key? r v with _ | key
  · simp [hkey, last?]
  · simp [hkey]

/-- The last call lasts, and was in the input of all calls that do. -/
theorem exists_lasting_iff {i : InputId} :
    (∃ key, Lasting r visits key ∧ key.1 = i) ↔ ∃ key ∈ last? r visits, key.1 = i := by
  induction visits using List.reverseRecOn with
  | nil =>
    refine iff_of_false (fun h => ?_) fun h => ?_
    · obtain ⟨key, hlasting, -⟩ := h
      exact not_lasting_nil hlasting
    · obtain ⟨key, hlast, -⟩ := h
      cases hlast
  | append_singleton visits v ih =>
    rw [last?_append_singleton]
    rcases hkey : key? r v with _ | key'
    · have hv (key : MemoKey) : v ≠ .called r key := by
        rintro rfl
        rw [key?_eq_some_iff.mpr rfl] at hkey
        cases hkey
      rw [Option.none_or, ← ih]
      exact exists_congr fun key => and_congr_left fun _ => lasting_append_of_ne hv
    · -- a call of the rule: only places of its input last beyond it
      rw [key?_eq_some_iff.mp hkey]
      constructor
      · rintro ⟨key, hlasting, rfl⟩
        refine ⟨key', rfl, ?_⟩
        rcases lasting_append_called_iff.mp hlasting with rfl | ⟨hi, -⟩
        · rfl
        · exact hi
      · rintro ⟨key, hlast, rfl⟩
        cases hlast
        exact ⟨key', lasting_append_called_iff.mpr (.inl rfl), rfl⟩

end Visit

/-! ## Interleavings -/

namespace GrammarParser

variable {π : Type → Type} {C T ρ : Type} [Cursor C T] [Primitive π] [Primitive.Runs π C]

/-- The states that uses of a grammar and of its rules lead to, on any inputs and however they end,
and the visits of rules since the grammar has forgotten everything. The rules are alive, while the
registry may go on changing. -/
inductive Interleaved (I : Inputs C) (reg : Registry π ρ) (rules : List Rule) :
    GrammarParser → Session C ρ → List Visit → Prop where
  /-- A grammar that was just finished; its rules may have been used before. -/
  | start {g : GrammarParser} {s : Session C ρ} (hrules : g.rules = rules)
    (hinput : g.lastInput = none) (hs : Session.Reached (π := π) I s) :
    Interleaved I reg rules g s []
  /-- Any expression may use the rules. -/
  | run {g : GrammarParser} {s : Session C ρ} {visits : List Visit} {reg' : Registry π ρ}
    {α : Type} (p : Parser π ρ α) (definition : String → Parser π ρ ρ) (fuel : Nat)
    (ctx : Context π ρ) {c : C} (h : Interleaved I reg rules g s visits)
    (hlater : reg.Later (rules.map Rule.id) reg') (hc : I.Has c) :
    Interleaved I reg rules g (p.run ⟨reg'.binding, definition⟩ fuel ctx c s).2
      (visits ++ p.visits ⟨reg'.binding, definition⟩ fuel ctx c s)
  | parse {g : GrammarParser} {s : Session C ρ} {visits : List Visit} {reg' : Registry π ρ}
    (definition : String → Parser π ρ ρ) (fuel : Nat) {c : C}
    (h : Interleaved I reg rules g s visits) (hlater : reg.Later (rules.map Rule.id) reg')
    (hc : I.Has c) :
    Interleaved I reg rules (g.parse ⟨reg'.binding, definition⟩ fuel c s).2.1
      (g.parse ⟨reg'.binding, definition⟩ fuel c s).2.2
      ((if g.lastInput = some (input c) then visits else []) ++
        (Parser.rule g.start).visits ⟨reg'.binding, definition⟩ fuel {} c (g.enter (input c) s).2)
  | clearMemo {g : GrammarParser} {s : Session C ρ} {visits : List Visit}
    (h : Interleaved I reg rules g s visits) : Interleaved I reg rules g (g.clearMemo s) []

variable [Cursor.Lawful C] [Primitive.Lawful π C] {I : Inputs C} {reg reg' : Registry π ρ}
  {g : GrammarParser} {s : Session C ρ} {visits : List Visit} {rules : List Rule}

omit [Cursor C T] [Primitive π] [Primitive.Runs π C] [Cursor.Lawful C] [Primitive.Lawful π C] in
/-- After everything is forgotten, the ledger of a grammar is empty. -/
theorem ledger_clearMemo (g : GrammarParser) (s : Session C ρ) :
    (g.clearMemo s).Ledger (g.rules.map Rule.id) [] := by
  refine .start fun id hid => ?_
  obtain ⟨r, hr, rfl⟩ := List.mem_map.mp hid
  exact entries_memo_clearMemo hr s

/-- A parse by the grammar begins with what is known of its input, or with nothing. -/
theorem ledger_enter {i : InputId}
    (h : g.lastInput = none ∨ s.Ledger (g.rules.map Rule.id) visits) :
    (g.enter i s).2.Ledger (g.rules.map Rule.id) (if g.lastInput = some i then visits else []) := by
  unfold enter
  split
  · rename_i hinput
    refine h.resolve_left fun hnone => ?_
    rw [hnone] at hinput
    cases hinput
  · exact ledger_clearMemo g s

/-- Once the grammar has parsed, the ledger is right. -/
theorem Interleaved.ledger (h : Interleaved I reg rules g s visits)
    (hbound : ∀ r ∈ rules.map Rule.id, ∃ build body, reg.binding r = .bound true build body) :
    g.rules = rules ∧ s.Forward I ∧
      (g.lastInput = none ∨ s.Ledger (g.rules.map Rule.id) visits) := by
  induction h with
  | start hrules hinput hs => exact ⟨hrules, forward_of_reached hs, .inl hinput⟩
  | run p definition fuel ctx _ hlater hc ih =>
    obtain ⟨rfl, hforward, hledger⟩ := ih
    refine ⟨rfl, hforward.run p _ fuel ctx hc, hledger.imp_right fun hledger => ?_⟩
    exact hledger.run hforward (hlater.exists_binding_of_mem hbound) fuel ctx p hc
  | @parse g s _ _ definition fuel c _ hlater hc ih =>
    obtain ⟨rfl, hforward, hledger⟩ := ih
    have hentered := hforward.of_lookup (lookup_of_enter (g := g) (i := input c))
    refine ⟨rfl, Session.Forward.run hentered (.rule g.start) _ fuel {} hc, .inr ?_⟩
    exact (ledger_enter hledger).run hentered (hlater.exists_binding_of_mem hbound) fuel {}
      (.rule g.start) hc
  | @clearMemo g s _ _ ih =>
    obtain ⟨rfl, hforward, -⟩ := ih
    exact ⟨rfl, hforward.of_lookup lookup_of_clearMemo, .inr (ledger_clearMemo g s)⟩

/-- After a parse by the grammar, its rules know of just those places where they were called, and
have not been called in another input since; visits count from the last time that the grammar has
forgotten everything. So all that is known is of the input of the parse just if no rule was last
called in another one, and the grammar counts the places of which something is known. -/
theorem Interleaved.parse_entries {draft : Grammar} (hbuilt : Grammar.Built true draft reg)
    {start : Rule} {parser : GrammarParser} (hfinish : draft.finish start reg = .ok parser)
    (h : Interleaved I reg parser.rules g s visits)
    (hlater : reg.Later (parser.rules.map Rule.id) reg') (definition : String → Parser π ρ ρ)
    (fuel : Nat) {c : C} (hc : I.Has c) {result : Except Halt (Outcome C ρ)} {g' : GrammarParser}
    {s' : Session C ρ} (hparse : g.parse ⟨reg'.binding, definition⟩ fuel c s = (result, g', s'))
    {visits' : List Visit}
    (hvisits : visits' = (if g.lastInput = some (input c) then visits else []) ++
      (Parser.rule g.start).visits ⟨reg'.binding, definition⟩ fuel {} c (g.enter (input c) s).2) :
    (∀ r ∈ draft.ruleIds, ∀ key,
      key ∈ (s'.memo r).entries.keys ↔ Visit.Lasting r visits' key) ∧
    ((∀ r ∈ draft.ruleIds, ∀ key ∈ (s'.memo r).entries.keys, key.1 = input c) ↔
      ∀ r ∈ draft.ruleIds, ∀ key ∈ Visit.last? r visits', key.1 = input c) ∧
    g'.memoLength s' = Set.ncard {x : RuleId × MemoKey |
      x.1 ∈ draft.ruleIds ∧ Visit.Lasting x.1 visits' x.2} := by
  have hids : parser.rules.map Rule.id = draft.ruleIds := by
    rw [Grammar.eq_of_finish hfinish]
    rfl
  have hbound : ∀ r ∈ parser.rules.map Rule.id, ∃ build body,
      reg.binding r = .bound true build body := by
    intro id hid
    obtain ⟨r, hr, rfl⟩ := List.mem_map.mp (hids ▸ hid)
    exact hbuilt.binding_of_finish hfinish hr
  obtain ⟨hrules, -, hledger⟩ := (h.parse definition fuel hlater hc).ledger hbound
  rw [hparse, ← hvisits] at hledger
  rw [hparse] at hrules
  have hinput : g'.lastInput ≠ none := by
    rw [parse_eq] at hparse
    obtain ⟨-, rfl, -⟩ := Prod.mk.inj hparse |>.imp_right Prod.mk.inj
    exact Option.some_ne_none _
  replace hledger := hledger.resolve_left hinput
  rw [hrules, hids] at hledger
  -- the parse has turned to an input, so that the ledger of the rules is right from there on
  have hlasting : ∀ r ∈ draft.ruleIds, ∀ key,
      key ∈ (s'.memo r).entries.keys ↔ Visit.Lasting r visits' key :=
    fun r hr key => (hledger r hr).mem_keys_iff
  refine ⟨hlasting, ⟨fun hkeys r hr key hlast => ?_, fun hlast r hr key hkey => ?_⟩, ?_⟩
  · obtain ⟨key', hlasting', hi⟩ := Visit.exists_lasting_iff.mpr ⟨key, hlast, rfl⟩
    exact hi.symm.trans (hkeys r hr key' ((hlasting r hr key').mpr hlasting'))
  · obtain ⟨key', hlast', hi⟩ :=
      Visit.exists_lasting_iff.mp ⟨key, (hlasting r hr key).mp hkey, rfl⟩
    exact hi.symm.trans (hlast r hr key' hlast')
  · have hids' : g'.rules.map Rule.id = draft.ruleIds := by rw [hrules, hids]
    rw [memoLength_eq_ncard (hids' ▸ hbuilt.nodup_ruleIds)
      (hids' ▸ fun r hr => (hledger r hr).nodup), hids']
    congr 1
    ext ⟨r, key⟩
    exact and_congr_right fun hr => hlasting r hr key

/-! ### Two rules of one grammar -/

namespace Letters

/-- The rule that the grammar starts with. -/
def first : Rule :=
  ⟨⟨0⟩, "first"⟩

/-- A rule that the grammar does not come to. -/
def second : Rule :=
  ⟨⟨1⟩, "second"⟩

def pair : Grammar :=
  ⟨true, [first, second]⟩

def pairRegistry : Registry TextPrimitive Nat :=
  ⟨[{ name := "first", packrat := true, body := some (⟨0⟩, .replaced 0 (.char 'a')) },
    { name := "second", packrat := true, body := some (⟨1⟩, .replaced 0 (.char 'b')) }]⟩

/-- The grammar of the two rules is built step by step. -/
theorem pair_built : Grammar.Built true pair pairRegistry := by
  have hstart : Grammar.Built true { packrat := true } ({} : Registry TextPrimitive Nat) :=
    .start {}
  have hfirst := hstart.declare
    (show Grammar.declare _ "first" _ = .ok (first, ⟨true, [first]⟩, _) from rfl)
  have hsecond :=
    hfirst.declare (show Grammar.declare _ "second" _ = .ok (second, pair, _) from rfl)
  have hbind := hsecond.bind
    (show Registry.bind _ first ⟨0⟩ (.replaced 0 (.char 'a')) = .ok _ from rfl)
  exact hbind.bind
    (show Registry.bind _ second ⟨1⟩ (.replaced 0 (.char 'b')) = .ok pairRegistry from rfl)

def pairParser : GrammarParser :=
  ⟨first, [first, second], none⟩

def pairEnvironment : Environment TextPrimitive Nat :=
  ⟨pairRegistry.binding, fun _ => .fail "<undefined>"⟩

/-- The first input is `a`, and all others are `b`. -/
def twoInputs : Inputs TextReader :=
  ⟨fun i => .ofChars [if i.number = 0 then 'a' else 'b'] (.offset 0) i, fun _ => rfl⟩

/-- After the grammar has parsed the first input. -/
def parsed : GrammarParser × Session TextReader Nat :=
  (pairParser.parse pairEnvironment 4 (twoInputs.start ⟨0⟩) {}).2

/-- After the second rule was used for the second input as well. -/
def used : Session TextReader Nat :=
  ((Parser.rule second).run pairEnvironment 4 {} (twoInputs.start ⟨1⟩) parsed.2).2

/-- The visits up to there. -/
def usedVisits : List Visit :=
  [] ++ (Parser.rule first).visits pairEnvironment 4 {} (twoInputs.start ⟨0⟩)
      (pairParser.enter ⟨0⟩ {}).2 ++
    (Parser.rule second).visits pairEnvironment 4 {} (twoInputs.start ⟨1⟩) parsed.2

/-- The state after the second rule was used is one of those that uses lead to. -/
theorem interleaved_used :
    Interleaved twoInputs pairRegistry [first, second] parsed.1 used usedVisits := by
  have hstart : Interleaved twoInputs pairRegistry [first, second] pairParser {} [] :=
    .start rfl rfl (.start rfl)
  have hparsed := hstart.parse (fun _ => .fail "<undefined>") 4 .refl (twoInputs.has_start ⟨0⟩)
  exact hparsed.run (.rule second) (fun _ => .fail "<undefined>") 4 {} .refl
    (twoInputs.has_start ⟨1⟩)

/-- After the second rule was used for the first input, too. -/
def usedAgain : Session TextReader Nat :=
  ((Parser.rule second).run pairEnvironment 4 {} (twoInputs.start ⟨0⟩) used).2

end Letters

open Letters in
/-- When the grammar parses the first input again, and the second rule was used for it as well, the
second rule knows of this input only. -/
theorem Interleaved.parse_entries_pair :
    (⟨0⟩, 0) ∈ (((parsed.1.parse pairEnvironment 4 (twoInputs.start ⟨0⟩)
      usedAgain).2.2).memo second.id).entries.keys ∧
    (⟨1⟩, 0) ∉ (((parsed.1.parse pairEnvironment 4 (twoInputs.start ⟨0⟩)
      usedAgain).2.2).memo second.id).entries.keys := by
  have hused := interleaved_used.run (.rule second) (fun _ => .fail "<undefined>") 4 {} .refl
    (twoInputs.has_start ⟨0⟩)
  have hfinish : pair.finish first pairRegistry = .ok pairParser := rfl
  have hone := (parse_entries pair_built hfinish hused .refl (fun _ => .fail "<undefined>") 4
    (twoInputs.has_start ⟨0⟩) rfl rfl).2.1.mpr (by decide)
  refine ⟨by decide, fun hmem => ?_⟩
  have hsecond : second.id ∈ pair.ruleIds := List.mem_cons_of_mem _ List.mem_cons_self
  exact absurd (hone second.id hsecond (⟨1⟩, 0) hmem) (by decide)

open Letters in
/-- When the grammar parses the first input again, the second rule still knows of the second. -/
theorem Interleaved.not_one_input :
    Grammar.Built true pair pairRegistry ∧ pair.finish first pairRegistry = .ok pairParser ∧
    Interleaved twoInputs pairRegistry pairParser.rules parsed.1 used usedVisits ∧
    parsed.1.parse pairEnvironment 4 (twoInputs.start ⟨0⟩) used =
      (.ok (.success 0 ⟨['a'], [], 1, .offset 1, ⟨0⟩⟩), parsed.1,
        (parsed.1.parse pairEnvironment 4 (twoInputs.start ⟨0⟩) used).2.2) ∧
    (⟨1⟩, 0) ∈ (((parsed.1.parse pairEnvironment 4 (twoInputs.start ⟨0⟩) used).2.2).memo
      second.id).entries.keys ∧
    parsed.1.memoLength (parsed.1.parse pairEnvironment 4 (twoInputs.start ⟨0⟩) used).2.2 = 2 :=
  ⟨pair_built, rfl, interleaved_used, rfl, by decide, rfl⟩

end GrammarParser

end Parsing
