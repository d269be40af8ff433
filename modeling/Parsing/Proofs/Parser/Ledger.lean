import Parsing.Proofs.Parser.Accounts
import Parsing.Proofs.Parser.Bookkeeping

/-!
# What rules still know

A rule that is called in another input forgets what it knew. So it knows of a place if it was called
there, and from then on in that input only (`Visit.Lasting`). However a run ends, rules that keep a
memo have entries for just those places (`Session.Ledger.run`). Each rule turns to another input by
itself: nothing is said of rules that are not called.
-/

namespace Parsing

open Recognizer Cursor

/-! ## Visits that last -/

namespace Visit

variable {r : RuleId} {visits : List Visit} {key key' : MemoKey}

/-- Whether a rule was called at a place and has not been called in another input since. -/
def Lasting (r : RuleId) (visits : List Visit) (key : MemoKey) : Prop :=
  ∃ before after, visits = before ++ .called r key :: after ∧
    ∀ key', .called r key' ∈ after → key'.1 = key.1

/-- Before the first call no place is lasting. -/
theorem not_lasting_nil : ¬Lasting r [] key := by
  rintro ⟨before, after, h, -⟩
  exact List.append_ne_nil_of_right_ne_nil before (List.cons_ne_nil _ after) h.symm

/-- Whether a visit is the last one, or was there before. -/
theorem lasting_append_singleton_iff {v : Visit} : Lasting r (visits ++ [v]) key ↔
    v = .called r key ∨
      (∀ key', v = .called r key' → key'.1 = key.1) ∧ Lasting r visits key := by
  constructor
  · rintro ⟨before, after, h, hafter⟩
    rcases List.eq_nil_or_concat after with rfl | ⟨after, w, rfl⟩
    · obtain ⟨-, hv⟩ := List.append_inj' h rfl
      exact .inl (List.singleton_inj.mp hv)
    · rw [List.concat_eq_append] at hafter
      have h' : visits ++ [v] = (before ++ .called r key :: after) ++ [w] := by simpa using h
      obtain ⟨hvisits, hv⟩ := List.append_inj' h' rfl
      rw [List.singleton_inj] at hv
      refine .inr ⟨fun key' hcalled => hafter key' ?_, before, after, hvisits, fun key' hmem => ?_⟩
      · rw [← hv, hcalled]
        exact List.mem_concat_self
      · exact hafter key' (List.mem_append_left _ hmem)
  · rintro (rfl | ⟨hv, before, after, rfl, hafter⟩)
    · exact ⟨visits, [], rfl, fun key' hmem => absurd hmem List.not_mem_nil⟩
    · refine ⟨before, after ++ [v], List.append_assoc _ _ _, fun key' hmem => ?_⟩
      rcases List.mem_append.mp hmem with hmem | hmem
      · exact hafter key' hmem
      · exact hv key' (List.mem_singleton.mp hmem).symm

/-- Only calls of a rule matter to it. -/
theorem lasting_append_of_ne {v : Visit} (hv : ∀ key', v ≠ .called r key') :
    Lasting r (visits ++ [v]) key ↔ Lasting r visits key := by
  rw [lasting_append_singleton_iff, or_iff_right (hv key), and_iff_right]
  exact fun key' h => absurd h (hv key')

/-- A call lasts, and so do the earlier ones in its input. -/
theorem lasting_append_called_iff : Lasting r (visits ++ [.called r key']) key ↔
    key = key' ∨ key'.1 = key.1 ∧ Lasting r visits key := by
  rw [lasting_append_singleton_iff]
  refine or_congr ?_ (and_congr_left fun _ => ?_)
  · rw [Visit.called.injEq, eq_comm (a := key)]
    exact and_iff_right rfl
  · constructor
    · exact fun h => h key' rfl
    · rintro h key'' hv
      cases hv
      exact h

end Visit

/-! ## One rule -/

namespace Memo

variable {C ρ : Type} {m : Memo C ρ} {r : RuleId} {visits : List Visit} {key : MemoKey}

/-- Whether a rule knows of just those places where it was called, and has not turned to another
input since. -/
structure Ledger (r : RuleId) (m : Memo C ρ) (visits : List Visit) : Prop where
  nodup : m.entries.keys.Nodup
  mem_keys_iff {key : MemoKey} : key ∈ m.entries.keys ↔ Visit.Lasting r visits key
  input_eq {key : MemoKey} : key ∈ m.entries.keys → m.input = some key.1

namespace Ledger

/-- A rule that was never called knows of no place. -/
theorem start (h : m.entries = {}) : m.Ledger r [] where
  nodup := by
    rw [h]
    exact List.nodup_nil
  mem_keys_iff := by
    rw [h]
    exact iff_of_false List.not_mem_nil Visit.not_lasting_nil
  input_eq hmem := by
    rw [h] at hmem
    exact absurd hmem List.not_mem_nil

/-- What is no call of the rule does not count. -/
theorem append (h : m.Ledger r visits) {v : Visit} (hv : ∀ key, v ≠ .called r key) :
    m.Ledger r (visits ++ [v]) :=
  { h with mem_keys_iff := h.mem_keys_iff.trans (Visit.lasting_append_of_ne hv).symm }

/-- Of what was known, only the places of the input that is turned to are kept. -/
theorem mem_keys_enter_iff (h : m.Ledger r visits) {i : InputId} :
    key ∈ (m.enter i).entries.keys ↔ i = key.1 ∧ key ∈ m.entries.keys := by
  unfold enter
  split
  · rename_i hinput
    refine ⟨fun hmem => ⟨?_, hmem⟩, And.right⟩
    rw [h.input_eq hmem] at hinput
    exact (Option.some.inj hinput).symm
  · rename_i hinput
    refine iff_of_false List.not_mem_nil ?_
    rintro ⟨rfl, hmem⟩
    exact hinput (h.input_eq hmem)

/-- A call that finds something. -/
theorem call_of_mem (h : m.Ledger r visits) (hmem : key ∈ (m.enter key.1).entries.keys) :
    (m.enter key.1).Ledger r (visits ++ [.called r key]) where
  nodup := by
    unfold enter
    split
    · exact h.nodup
    · exact List.nodup_nil
  mem_keys_iff {key'} := by
    rw [Visit.lasting_append_called_iff, ← h.mem_keys_iff, ← h.mem_keys_enter_iff,
      or_iff_right_of_imp]
    rintro rfl
    exact hmem
  input_eq {key'} hmem := by
    rw [Session.input_enter, (h.mem_keys_enter_iff.mp hmem).1]

/-- An insertion adds its key to those known. -/
theorem mem_keys_insert_iff {key' : MemoKey} {e : MemoEntry C ρ} :
    key' ∈ (m.insert key e).entries.keys ↔ key' = key ∨ key' ∈ m.entries.keys := by
  rw [Table.mem_keys_iff, Table.mem_keys_iff, insert, Table.find?_insert]
  split
  · exact iff_of_true rfl (.inl ‹_›)
  · exact (or_iff_right ‹_›).symm

/-- A call that finds nothing. -/
theorem call (h : m.Ledger r visits) :
    ((m.enter key.1).insert key .pending).Ledger r (visits ++ [.called r key]) where
  nodup := by
    refine Table.nodup_keys_insert ?_ key _
    unfold enter
    split
    · exact h.nodup
    · exact List.nodup_nil
  mem_keys_iff {key'} := by
    rw [mem_keys_insert_iff, h.mem_keys_enter_iff, Visit.lasting_append_called_iff, h.mem_keys_iff]
  input_eq {key'} hmem := by
    change (m.enter key.1).input = _
    rw [Session.input_enter]
    rcases mem_keys_insert_iff.mp hmem with rfl | hmem
    · rfl
    · rw [(h.mem_keys_enter_iff.mp hmem).1]

/-- An outcome takes the place of what was there. -/
theorem resolve (h : m.Ledger r visits) (hmem : key ∈ m.entries.keys) (o : Outcome C ρ) :
    (m.insert key (.resolved o)).Ledger r visits where
  nodup := Table.nodup_keys_insert h.nodup key _
  mem_keys_iff {key'} := by
    rw [mem_keys_insert_iff, or_iff_right_of_imp (fun heq => heq ▸ hmem), h.mem_keys_iff]
  input_eq {key'} hmem' := by
    rw [mem_keys_insert_iff, or_iff_right_of_imp (fun heq => heq ▸ hmem)] at hmem'
    exact h.input_eq hmem'

end Ledger

end Memo

/-! ## All rules -/

namespace Session

variable {C ρ : Type} {rules : List RuleId} {s t : Session C ρ} {visits : List Visit} {r : RuleId}
  {key : MemoKey}

/-- Whether some rules know of just those places where they were called, and have not turned to
another input since. -/
def Ledger (rules : List RuleId) (s : Session C ρ) (visits : List Visit) : Prop :=
  ∀ r ∈ rules, (s.memo r).Ledger r visits

namespace Ledger

/-- Rules that were never called know of no places. -/
theorem start (h : ∀ r ∈ rules, (s.memo r).entries = {}) : s.Ledger rules [] :=
  fun r hr => .start (h r hr)

/-- The ledger depends on the memos of a session only. -/
theorem of_memos (h : s.Ledger rules visits) (hst : t.memos = s.memos) : t.Ledger rules visits := by
  intro r hr
  rw [memo, hst]
  exact h r hr

/-- That a rule is at work does not count. -/
theorem append_invoked (h : s.Ledger rules visits) (r : RuleId) (key : MemoKey) :
    s.Ledger rules (visits ++ [.invoked r key]) := by
  refine fun r' hr' => (h r' hr').append fun key' heq => ?_
  cases heq

/-- Calls of other rules do not count. -/
theorem append_called (h : s.Ledger rules visits) (hr : r ∉ rules) (key : MemoKey) :
    s.Ledger rules (visits ++ [.called r key]) := by
  refine fun r' hr' => (h r' hr').append fun key' heq => ?_
  cases heq
  exact hr hr'

/-- A call is entered for its rule. -/
theorem call (h : s.Ledger rules visits) (r : RuleId) (key : MemoKey) :
    (s.call r key).2.Ledger rules (visits ++ [.called r key]) := by
  intro r' hr'
  by_cases hne : r' = r
  · subst hne
    rw [Session.call, memo_setMemo, if_pos rfl]
    split
    · exact (h r' hr').call_of_mem (Table.mem_keys_iff.mpr ‹_›)
    · exact (h r' hr').call
  · rw [memo_call_of_ne hne]
    refine (h r' hr').append fun key' heq => ?_
    cases heq
    exact hne rfl

/-- Resolving a call changes what is known of its place, and not that it is known. -/
theorem resolveCall (h : s.Ledger rules visits) (hsome : (s.lookup r key).isSome)
    (o : Outcome C ρ) : (s.resolveCall r key o).Ledger rules visits := by
  intro r' hr'
  by_cases hne : r' = r
  · subst hne
    rw [Session.resolveCall, memo_setMemo, if_pos rfl]
    obtain ⟨e, hsome⟩ := Option.isSome_iff_exists.mp hsome
    refine (h r' hr').resolve (Table.mem_keys_iff.mpr ?_) o
    exact Option.isSome_of_eq_some (lookup_eq_some_iff.mp hsome).2
  · rw [memo_resolveCall_of_ne hne]
    exact h r' hr'

end Ledger

end Session

/-! ## Runs -/

section Runs

variable {π : Type → Type} {C T ρ α : Type} [Cursor C T] {env : Environment π ρ} {I : Inputs C}
  {rules : List RuleId} {c : C}

/-- The steps of a run keep the ledger of rules that keep a memo, with the visits of the past. -/
theorem Session.Ledger.keptInRuns
    (hrules : ∀ r ∈ rules, ∃ build body, env.rule r = .bound true build body) (i : InputId)
    (past : List Visit) :
    KeptInRuns env I i fun s visits => s.Ledger rules (past ++ visits) where
  of_memos h hst := h.of_memos hst
  pass {s visits r} key h hr := by
    have hnot : r ∉ rules := by
      intro hmem
      obtain ⟨build, body, hbound⟩ := hrules r hmem
      exact hr build body hbound
    rw [← List.append_assoc, ← List.append_assoc]
    exact (h.append_called hnot key).append_invoked r key
  call r c h _ _ := by
    rw [← List.append_assoc]
    exact h.call r (key c)
  invoke r key h := by
    rw [← List.append_assoc]
    exact h.append_invoked r key
  resolve h _ _ hsome _ _ := h.resolveCall hsome _

variable [Cursor.Lawful C] [Primitive π] [Primitive.Runs π C] [Primitive.Lawful π C]

/-- However a run ends, the ledger goes on with the visits of the run. -/
theorem Session.Ledger.run {s : Session C ρ} {visits : List Visit} (h : s.Ledger rules visits)
    (hforward : s.Forward I)
    (hrules : ∀ r ∈ rules, ∃ build body, env.rule r = .bound true build body) (fuel : Nat)
    (ctx : Context π ρ) (p : Parser π ρ α) (hc : I.Has c) :
    (p.run env fuel ctx c s).2.Ledger rules (visits ++ p.visits env fuel ctx c s) := by
  refine (keptInRuns hrules (input c) visits).run ?_ hforward fuel ctx p hc rfl
  rwa [List.append_nil]

end Runs

end Parsing
