import Mathlib.Data.Set.Card
import Parsing.Proofs.Grammar.Consumption
import Parsing.Proofs.Grammar.LifeCycle
import Parsing.Proofs.Parser.Accounts
import Parsing.Proofs.Parser.Forward

/-!
# The work of rules with memos

A rule that keeps a memo runs its parser at most once at each place of an input, as long as nothing
is forgotten: runs keep the accounts of what rules know (`Parser.audit_accounts`), and so do
sequences of parses of one input (`GrammarParser.Worked`).

The parser of a grammar turns to an input by forgetting what the rules remember, even if that was
remembered of the same input (`Worked.twice_of_letters`). So the visits are counted from there on.
-/

namespace Parsing

open Recognizer Cursor

/-! ## Runs -/

section Runs

variable {π : Type → Type} {C T ρ α : Type} [Cursor C T] [Cursor.Lawful C] [Primitive π]
  [Primitive.Runs π C] [Primitive.Lawful π C] {env : Environment π ρ} {I : Inputs C}
  {rules : List RuleId} {i : InputId} {active : RuleId → MemoKey → Prop} {past : List Visit} {c : C}

/-- Whether all accounts of an input are right: what is remembered leaves later cursors, and agrees
with the visits. -/
def Audited (I : Inputs C) (rules : List RuleId) (i : InputId) (active : RuleId → MemoKey → Prop)
    (past : List Visit) (x : Session C ρ × List Visit) : Prop :=
  x.1.Forward I ∧ x.1.Accounts rules i active (past ++ x.2)

/-- A rule that keeps a memo keeps accounts if its parser does so while the rule is at work. -/
theorem Audited.memoized {r : RuleId} {body : Recognizer (Effect (Session C ρ × List Visit)) C ρ}
    (hc : I.Has c) (hi : input c = i)
    (hbody : Yields (Audited I rules i (fun r' key' => active r' key' ∨ r' = r ∧ key' = key c) past)
      (·.Within c) (body c)) :
    Yields (Audited I rules i active past) (·.Within c)
      (recorded (.called r (key c))
        (Recognizer.memoized r (fun d => recorded (.invoked r (key d)) (body d)) c)) := by
  refine .intro ?_ fun _ _ _ _ _ => trivial
  rintro ⟨s, visits⟩ o ⟨s', visits'⟩ ⟨hforward, haccounts⟩ hrun
  rw [run_recorded] at hrun
  rcases memoized_cases_added hrun with ⟨e, hentry, rfl, rfl, ho⟩ | ⟨hnone, s₁, hrun₁, rfl⟩
  · -- the rule knows something, and only its call is written down
    refine ⟨⟨hforward.call hc r, ?_⟩, ?_⟩
    · rw [← List.append_assoc]
      exact haccounts.call_of_lookup hi hentry
    · rcases ho with rfl | ⟨-, rfl⟩
      · exact hforward.resolved hc hentry
      · exact Outcome.within_noSuccess _ _
  · -- the rule knows nothing: its parser is run while it is at work, and the outcome is remembered
    have hstart : Audited I rules i (fun r' key' => active r' key' ∨ (r' = r ∧ key' = key c)) past
        ((s.call r (key c)).2, visits ++ [.called r (key c)] ++ [.invoked r (key c)]) := by
      refine ⟨hforward.call hc r, ?_⟩
      rw [← List.append_assoc, ← List.append_assoc]
      exact haccounts.call hi hnone
    rw [run_recorded] at hrun₁
    obtain ⟨⟨hforward₁, haccounts₁⟩, ho⟩ := hbody.of_ok hstart hrun₁
    have hactive (hr : r ∈ rules) : ¬active r (key c) := haccounts.not_active hr hi hnone
    exact ⟨⟨hforward₁.resolveCall hc ho r, haccounts₁.resolveCall hactive o⟩, ho⟩

/-- Runs keep accounts. -/
theorem Parser.audit_accounts
    (hrules : ∀ r ∈ rules, ∃ build body, env.rule r = .bound true build body) (fuel : Nat)
    (ctx : Context π ρ) (p : Parser π ρ α) (hc : I.Has c) (hi : input c = i) :
    Yields (Audited I rules i active past) (·.Within c) (p.audit env fuel ctx c) := by
  induction fuel generalizing α active ctx c with
  | zero => exact .halt fun _ _ => trivial
  | succ n ih =>
    -- by induction for the runs inside, since entering them changes no memos
    have below {active : RuleId → MemoKey → Prop} :
        Yields (Audited I rules i active past) (·.Within c)
          ((p.plan env n ctx c).run (auditAnswer env n ctx.build)) := by
      refine .run (fun _ _ _ => trivial) (fun scope origin q d hd => ?_)
        (ahead_plan env n ctx p (After.refl c))
      refine .update_bind_added (fun s visits h => ?_) fun build =>
        ih _ q (hc.after hd) (hd.input_eq.trans hi)
      exact ⟨h.1.of_memos (s.memos_enter _ _), h.2.of_memos (s.memos_enter _ _)⟩
    rw [audit_succ]
    induction p using books with
    | none p hbooks =>
      have hrule : p.isRule = false := by
        cases p <;> first | rfl | cases hbooks
      rw [recording_eq_self hrule, recording_eq_self hrule, attend_eq_self hbooks]
      exact below
    | tally name p =>
      rw [recording_eq_self rfl, attend_tally, recording_eq_self rfl]
      refine below.bind fun o ho => ?_
      cases o with
      | success a rest =>
        exact .update_bind_added (fun s visits h => ⟨h.1.of_memos rfl, h.2.of_memos rfl⟩)
          fun _ => .pure ho
      | noSuccess r => exact .pure ho
    | rule r =>
      change Yields _ _ (recorded (.called r.id (key c)) ((rule r).attend env
        (fun d => recorded (.invoked r.id (key d)) _) c))
      rw [attend_rule]
      split
      · exact Audited.memoized hc hi below
      · -- only a rule that is none of those keeps no memo
        rename_i hbinding
        have hr : r.id ∉ rules := by
          intro hr
          obtain ⟨build, body, hbound⟩ := hrules r.id hr
          exact hbinding build body hbound
        refine .intro ?_ fun _ _ _ _ _ => trivial
        rintro ⟨s, visits⟩ o s' ⟨hforward, haccounts⟩ hrun
        rw [run_recorded, run_recorded, List.append_assoc] at hrun
        refine below.of_ok ?_ hrun
        refine ⟨hforward, ?_⟩
        have hvisits := haccounts.append_of_not_mem hr (key c)
        rwa [List.append_assoc, List.append_assoc] at hvisits

end Runs

/-! ## Sequences of parses -/

/-- The rule and the place of a call, if the rule is one of those. -/
def Visit.place? (rules : List RuleId) : Visit → Option (RuleId × MemoKey)
  | .called r key => if r ∈ rules then some (r, key) else none
  | .invoked _ _ => none

/-- The different pairs of a rule and a place at which it was called. -/
def Visit.places (rules : List RuleId) (visits : List Visit) : Finset (RuleId × MemoKey) :=
  (visits.filterMap (place? rules)).toFinset

/-- A pair of a rule and a place is counted if the rule was called there. -/
theorem Visit.mem_places_iff {rules : List RuleId} {visits : List Visit} {r : RuleId}
    {key : MemoKey} : (r, key) ∈ places rules visits ↔ r ∈ rules ∧ .called r key ∈ visits := by
  rw [places, List.mem_toFinset, List.mem_filterMap]
  constructor
  · rintro ⟨_ | _, hvisit, hplace⟩
    · rw [place?] at hplace
      split at hplace
      · cases hplace
        exact ⟨‹_›, hvisit⟩
      · cases hplace
    · cases hplace
  · rintro ⟨hr, hvisit⟩
    exact ⟨_, hvisit, by rw [place?, if_pos hr]⟩

namespace GrammarParser

variable {π : Type → Type} {C T ρ : Type} [Cursor C T] [Primitive π] [Primitive.Runs π C]

/-- The states that completed parses of one input lead to from an empty memo, and the visits of
rules since the parser of the grammar has emptied the memo. The rules are alive, while the registry
may go on changing. -/
inductive Worked (I : Inputs C) (reg : Registry π ρ) (rules : List Rule) (i : InputId) :
    GrammarParser → Session C ρ → List Visit → Prop where
  | start {g : GrammarParser} {s : Session C ρ} (hrules : g.rules = rules)
    (hs : Session.Reached (π := π) I s) (hempty : ∀ r ∈ rules, (s.memo r.id).entries = {}) :
    Worked I reg rules i g s []
  /-- Any expression may use the rules. -/
  | run {g : GrammarParser} {s s' : Session C ρ} {visits : List Visit} {reg' : Registry π ρ}
    {definition : String → Parser π ρ ρ} {α : Type} {p : Parser π ρ α} {fuel : Nat}
    {ctx : Context π ρ} {c : C} {o : Outcome C α} (h : Worked I reg rules i g s visits)
    (hlater : reg.Later (rules.map Rule.id) reg') (hc : I.Has c) (hi : input c = i)
    (hrun : p.run ⟨reg'.binding, definition⟩ fuel ctx c s = (.ok o, s')) :
    Worked I reg rules i g s' (visits ++ p.visits ⟨reg'.binding, definition⟩ fuel ctx c s)
  /-- A parse by the grammar empties the memo unless its last parse was of the same input. -/
  | parse {g g' : GrammarParser} {s s' : Session C ρ} {visits : List Visit} {reg' : Registry π ρ}
    {definition : String → Parser π ρ ρ} {fuel : Nat} {c : C} {o : Outcome C ρ}
    (h : Worked I reg rules i g s visits) (hlater : reg.Later (rules.map Rule.id) reg')
    (hc : I.Has c) (hi : input c = i)
    (hrun : g.parse ⟨reg'.binding, definition⟩ fuel c s = (.ok o, g', s')) :
    Worked I reg rules i g' s' ((if g.lastInput = some i then visits else []) ++
      (Parser.rule g.start).visits ⟨reg'.binding, definition⟩ fuel {} c (g.enter i s).2)

omit [Cursor C T] [Primitive π] [Primitive.Runs π C] in
/-- After everything is forgotten, no rule of the grammar remembers anything. -/
theorem entries_memo_clearMemo {g : GrammarParser} {r : Rule} (hr : r ∈ g.rules)
    (s : Session C ρ) : ((g.clearMemo s).memo r.id).entries = {} := by
  have hkept (rules : List Rule) (s : Session C ρ) (hs : (s.memo r.id).entries = {}) :
      ((rules.foldl (fun s r => s.setMemo r.id (s.memo r.id).clear) s).memo r.id).entries = {} := by
    induction rules generalizing s with
    | nil => exact hs
    | cons r' rules ih =>
      refine ih _ ?_
      rw [Session.memo_setMemo]
      split
      · rfl
      · exact hs
  unfold clearMemo
  generalize g.rules = rules at hr
  induction rules generalizing s with
  | nil => cases hr
  | cons r' rules ih =>
    rw [List.foldl_cons]
    rcases List.mem_cons.mp hr with rfl | hr
    · exact hkept rules _ (by rw [Session.memo_setMemo, if_pos rfl]; rfl)
    · exact ih _ hr

omit [Cursor C T] [Primitive π] [Primitive.Runs π C] in
/-- The number of results is that of the rules and places of which something is remembered. -/
theorem memoLength_eq (g : GrammarParser) (s : Session C ρ) :
    g.memoLength s =
      ((g.rules.map Rule.id).flatMap fun r => (s.memo r).entries.keys.map (r, ·)).length := by
  unfold memoLength
  induction g.rules with
  | nil => rfl
  | cons r rules ih =>
    rw [List.foldr_cons, ih, List.map_cons, List.flatMap_cons, List.length_append, List.length_map,
      Table.keys, List.length_map, Table.size]

omit [Cursor C T] [Primitive π] [Primitive.Runs π C] in
/-- As many results are remembered as there are rules and places of which something is. -/
theorem memoLength_eq_ncard {g : GrammarParser} {s : Session C ρ}
    (hids : (g.rules.map Rule.id).Nodup)
    (hkeys : ∀ r ∈ g.rules.map Rule.id, (s.memo r).entries.keys.Nodup) :
    g.memoLength s = Set.ncard {x : RuleId × MemoKey |
      x.1 ∈ g.rules.map Rule.id ∧ x.2 ∈ (s.memo x.1).entries.keys} := by
  rw [memoLength_eq]
  generalize g.rules.map Rule.id = ids at hids hkeys
  -- entries of one rule differ in their keys, and those of different rules in the rule
  have hnodup : (ids.flatMap fun r => (s.memo r).entries.keys.map (r, ·)).Nodup := by
    refine List.nodup_flatMap.mpr ⟨fun r hr => ?_, hids.imp fun {r r'} hne => ?_⟩
    · exact (hkeys r hr).map (Prod.mk_right_injective r)
    · intro x hx hx'
      obtain ⟨key, -, rfl⟩ := List.mem_map.mp hx
      obtain ⟨key', -, heq⟩ := List.mem_map.mp hx'
      exact hne (congrArg Prod.fst heq).symm
  rw [← List.toFinset_card_of_nodup hnodup, ← Set.ncard_coe_finset]
  congr 1
  ext ⟨r, key⟩
  rw [Finset.mem_coe, List.mem_toFinset, List.mem_flatMap]
  constructor
  · rintro ⟨r', hr', hmem⟩
    obtain ⟨key', hkey, heq⟩ := List.mem_map.mp hmem
    cases heq
    exact ⟨hr', hkey⟩
  · rintro ⟨hr, hkey⟩
    exact ⟨r, hr, List.mem_map.mpr ⟨key, hkey, rfl⟩⟩

omit [Cursor C T] [Primitive π] [Primitive.Runs π C] in
/-- Where accounts are right, as many results are remembered as there were different calls. -/
theorem memoLength_eq_card {g : GrammarParser} {s : Session C ρ} {i : InputId}
    {active : RuleId → MemoKey → Prop} {visits : List Visit}
    (h : s.Accounts (g.rules.map Rule.id) i active visits) (hids : (g.rules.map Rule.id).Nodup) :
    g.memoLength s = (Visit.places (g.rules.map Rule.id) visits).card := by
  rw [memoLength_eq_ncard hids fun r hr => (h r hr).nodup, ← Set.ncard_coe_finset]
  congr 1
  ext ⟨r, key⟩
  rw [Finset.mem_coe, Visit.mem_places_iff]
  refine and_congr_right fun hr => ?_
  rw [(h r hr).called_iff, Table.mem_keys_iff]
  rfl

section Accounts

variable [Cursor.Lawful C] [Primitive.Lawful π C] {I : Inputs C} {reg : Registry π ρ}
  {g : GrammarParser} {i : InputId} {s : Session C ρ} {visits : List Visit}

/-- In all states that runs lead to, what is remembered leads ahead. -/
theorem forward_of_reached (h : Session.Reached (π := π) I s) : s.Forward I := by
  induction h with
  | start h => exact Session.Known.empty.of_memos h
  | run p env fuel ctx _ hc ih => exact ih.run p env fuel ctx hc
  | parse g env fuel _ hc ih =>
    exact Session.Forward.run (ih.of_lookup lookup_of_enter) (.rule g.start) env fuel {} hc
  | clearMemo g _ ih => exact ih.of_lookup lookup_of_clearMemo

/-- Completed runs keep accounts. -/
theorem audited_run {α : Type} {env : Environment π ρ} {rules : List RuleId}
    (hrules : ∀ r ∈ rules, ∃ build body, env.rule r = .bound true build body) {c : C} (hc : I.Has c)
    (hi : input c = i) (hforward : s.Forward I)
    (haccounts : s.Accounts rules i (fun _ _ => False) visits) {p : Parser π ρ α} {fuel : Nat}
    {ctx : Context π ρ} {o : Outcome C α} {s' : Session C ρ}
    (hrun : p.run env fuel ctx c s = (.ok o, s')) : s'.Forward I ∧
      s'.Accounts rules i (fun _ _ => False) (visits ++ p.visits env fuel ctx c s) := by
  have haudited : Audited I rules i (fun _ _ => False) visits (s, []) := by
    refine ⟨hforward, ?_⟩
    rwa [List.append_nil]
  exact ((p.audit_accounts hrules fuel ctx hc hi).of_ok haudited (Parser.run_audit hrun)).1

/-- In all states that parses of one input lead to, the accounts of that input are right. -/
theorem Worked.audited {rules : List Rule} (h : Worked I reg rules i g s visits)
    (hbound : ∀ r ∈ rules.map Rule.id, ∃ build body, reg.binding r = .bound true build body) :
    g.rules = rules ∧
      s.Forward I ∧ s.Accounts (rules.map Rule.id) i (fun _ _ => False) visits := by
  induction h with
  | start hg hs hempty =>
    refine ⟨hg, forward_of_reached hs, .start fun id hid => ?_⟩
    obtain ⟨r, hr, rfl⟩ := List.mem_map.mp hid
    exact hempty r hr
  | run _ hlater hc hi hrun ih =>
    obtain ⟨hg, hforward, haccounts⟩ := ih
    exact ⟨hg, audited_run (hlater.exists_binding_of_mem hbound) hc hi hforward haccounts hrun⟩
  | @parse g g' s s' visits _ _ _ c _ _ hlater hc hi hrun ih =>
    obtain ⟨hg, hforward, haccounts⟩ := ih
    rw [parse_eq, hi] at hrun
    obtain ⟨hresult, rfl, rfl⟩ := Prod.mk.inj hrun |>.imp_right Prod.mk.inj
    refine ⟨hg, audited_run (hlater.exists_binding_of_mem hbound) hc hi
      (hforward.of_lookup lookup_of_enter) ?_ (Prod.ext hresult rfl)⟩
    -- where the grammar empties the memo, the visits are counted anew
    unfold enter
    split
    · exact haccounts
    · refine .start fun id hid => ?_
      obtain ⟨r, hr, rfl⟩ := List.mem_map.mp hid
      exact entries_memo_clearMemo (hg ▸ hr) s

/-- The rules of a packrat grammar never run their parsers twice at a place, leave nothing pending,
and remember of the input at hand what they were called for, and nothing else. -/
theorem Worked.work_bounded {draft : Grammar} (hbuilt : Grammar.Built true draft reg) {start : Rule}
    {parser : GrammarParser} (hfinish : draft.finish start reg = .ok parser)
    (h : Worked I reg parser.rules i g s visits) :
    (∀ r ∈ draft.ruleIds, ∀ key, visits.count (.invoked r key) ≤ 1) ∧
    (∀ r ∈ draft.ruleIds, ∀ key e, (key, e) ∈ (s.memo r).entries.entries →
      e ≠ .pending ∧ (s.memo r).input = some key.1) ∧
    g.memoLength s = (Visit.places draft.ruleIds visits).card := by
  have hbound : ∀ r ∈ draft.ruleIds, ∃ build body, reg.binding r = .bound true build body := by
    intro id hid
    obtain ⟨r, hr, rfl⟩ := List.mem_map.mp hid
    exact hbuilt.binding_of_finish hfinish hr
  have hrules : parser.rules.map Rule.id = draft.ruleIds := by
    rw [Grammar.eq_of_finish hfinish]
    rfl
  obtain ⟨hg, -, haccounts⟩ := h.audited (hrules ▸ hbound)
  rw [← hg] at hrules haccounts
  have hnodup := hbuilt.nodup_ruleIds
  rw [← hrules] at hnodup ⊢
  refine ⟨fun r hr key => (haccounts r hr).count_le key, fun r hr key e hmem => ?_,
    memoLength_eq_card haccounts hnodup⟩
  have hentry : (s.memo r).find? key = some e := Table.find?_eq_of_mem (haccounts r hr).nodup hmem
  obtain ⟨rfl, hinput⟩ := (haccounts r hr).input_eq hentry
  refine ⟨?_, hinput⟩
  rintro rfl
  exact (haccounts r hr).pending_iff.mp hentry

end Accounts

/-! ### A grammar of one letter -/

namespace Letters

def letter : Rule :=
  ⟨⟨0⟩, "letter"⟩

/-- The letters that are read are counted. -/
def body : Parser TextPrimitive Nat Nat :=
  .tally "n" (.replaced 0 (.char 'x'))

def draft : Grammar :=
  ⟨true, [letter]⟩

def registry : Registry TextPrimitive Nat :=
  ⟨[{ name := "letter", packrat := true, body := some (⟨0⟩, body) }]⟩

/-- The grammar is built step by step. -/
theorem built : Grammar.Built true draft registry := by
  have hstart : Grammar.Built true { packrat := true } ({} : Registry TextPrimitive Nat) :=
    .start {}
  have hletter :=
    hstart.declare (show Grammar.declare _ "letter" _ = .ok (letter, draft, _) from rfl)
  exact hletter.bind (show Registry.bind _ letter ⟨0⟩ body = .ok registry from rfl)

def grammar : GrammarParser :=
  ⟨letter, [letter], none⟩

def environment : Environment TextPrimitive Nat :=
  ⟨registry.binding, fun _ => .fail "<undefined>"⟩

/-- Every input is one letter. -/
def inputs : Inputs TextReader :=
  ⟨fun i => .ofChars ['x'] (.offset 0) i, fun _ => rfl⟩

def reader : TextReader :=
  inputs.start ⟨0⟩

/-- After the rule was used. -/
def session : Session TextReader Nat :=
  ((Parser.rule letter).run environment 4 {} reader {}).2

/-- After the rule was used, and then the grammar. -/
def session' : Session TextReader Nat :=
  (grammar.parse environment 4 reader session).2.2

end Letters

open Letters in
/-- The grammar is used, and then the rule, which knows the letter already. -/
theorem Worked.work_bounded_letters :
    ((Parser.rule letter).visits environment 4 {} reader (grammar.enter ⟨0⟩ {}).2 ++
      (Parser.rule letter).visits environment 4 {} reader
        (grammar.parse environment 4 reader {}).2.2).count (.invoked letter.id (⟨0⟩, 0)) ≤ 1 := by
  have hreader : inputs.Has reader := inputs.has_start ⟨0⟩
  have hparse : grammar.parse environment 4 reader {} =
      (.ok (.success 0 ⟨['x'], [], 1, .offset 1, ⟨0⟩⟩), { grammar with lastInput := some ⟨0⟩ },
        (grammar.parse environment 4 reader {}).2.2) := rfl
  have hrun : (Parser.rule letter).run environment 4 {} reader
      (grammar.parse environment 4 reader {}).2.2 =
      (.ok (.success 0 ⟨['x'], [], 1, .offset 1, ⟨0⟩⟩), _) := rfl
  have hworked : Worked inputs registry [letter] ⟨0⟩ grammar {} [] :=
    .start rfl (.start rfl) fun _ _ => rfl
  have hworked := (hworked.parse .refl hreader rfl hparse).run .refl hreader rfl hrun
  have hfinish : draft.finish letter registry = .ok grammar := rfl
  exact (work_bounded built hfinish hworked).1 letter.id List.mem_cons_self (⟨0⟩, 0)

open Letters in
/-- The rule is used, and then the grammar: it empties the memo at its first parse, so the parser of
the rule is run twice at one place of one input. -/
theorem Worked.twice_of_letters :
    Grammar.Built true draft registry ∧ draft.finish letter registry = .ok grammar ∧
    inputs.Has reader ∧ Session.Reached (π := TextPrimitive) inputs ({} : Session TextReader Nat) ∧
    (Parser.rule letter).run environment 4 {} reader {} =
      (.ok (.success 0 ⟨['x'], [], 1, .offset 1, ⟨0⟩⟩), session) ∧
    grammar.parse environment 4 reader session =
      (.ok (.success 0 ⟨['x'], [], 1, .offset 1, ⟨0⟩⟩), { grammar with lastInput := some ⟨0⟩ },
        session') ∧
    ((Parser.rule letter).visits environment 4 {} reader {} ++
      (Parser.rule letter).visits environment 4 {} reader (grammar.enter ⟨0⟩ session).2).count
        (.invoked letter.id (Cursor.key reader)) = 2 :=
  ⟨built, rfl, inputs.has_start ⟨0⟩, .start rfl, rfl, rfl, by decide⟩

end GrammarParser

end Parsing
