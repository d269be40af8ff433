import Mathlib.Data.List.Nodup
import Parsing.Proofs.Parser.Visits

/-!
# Accounts of what rules know

What a rule knows of an input agrees with the visits of it that were written down
(`Memo.Accounts`): there is an entry for each place at which the rule was called, and its parser was
run there once at most. Visits of other rules do not matter (`Accounts.append`). Calling the rule
where it knows something changes nothing (`Accounts.append_called`), calling it where it knows
nothing puts it to work and runs its parser (`Accounts.call`), and an outcome ends that
(`Accounts.resolve`). So the same steps keep the accounts of all rules (`Session.Accounts`).
-/

namespace Parsing

/-! ## Tables without double keys -/

namespace Table

variable {κ ν : Type} [DecidableEq κ] {t : Table κ ν}

/-- The keys, the last one inserted first. -/
def keys (t : Table κ ν) : List κ :=
  t.entries.map Prod.fst

/-- A table has the keys at which something is found. -/
theorem mem_keys_iff {k : κ} : k ∈ t.keys ↔ (t.find? k).isSome := by
  simp [keys, find?, List.find?_isSome]

/-- No key is listed twice after an insertion. -/
theorem nodup_keys_insert (h : t.keys.Nodup) (k : κ) (v : ν) : (t.insert k v).keys.Nodup := by
  refine List.nodup_cons.mpr ⟨?_, ?_⟩
  · simp [erase]
  · exact h.sublist (List.filter_sublist.map Prod.fst)

/-- Without double keys, every entry is the one that is found. -/
theorem find?_eq_of_mem (h : t.keys.Nodup) {k : κ} {v : ν} (hmem : (k, v) ∈ t.entries) :
    t.find? k = some v := by
  obtain ⟨entries⟩ := t
  induction entries with
  | nil => cases hmem
  | cons e entries ih =>
    obtain ⟨hnot, hnodup⟩ := List.nodup_cons.mp h
    rcases List.mem_cons.mp hmem with rfl | hmem
    · simp [find?]
    · have hne : e.1 ≠ k := by
        rintro rfl
        exact hnot (List.mem_map.mpr ⟨_, hmem, rfl⟩)
      have hfind := ih hnodup hmem
      simpa [find?, hne] using hfind

end Table

/-! ## One rule -/

/-- The rule that is visited. -/
def Visit.rule : Visit → RuleId
  | .called r _ | .invoked r _ => r

namespace Memo

variable {C ρ : Type} {m : Memo C ρ} {r : RuleId} {i : InputId} {active active' : MemoKey → Prop}
  {visits : List Visit} {key : MemoKey}

/-- Whether what a rule knows of an input agrees with the visits of the rule; `active` tells where
it is at work. -/
structure Accounts (r : RuleId) (i : InputId) (active : MemoKey → Prop) (m : Memo C ρ)
    (visits : List Visit) : Prop where
  input_eq {key : MemoKey} {e : MemoEntry C ρ} :
    m.find? key = some e → key.1 = i ∧ m.input = some i
  nodup : m.entries.keys.Nodup
  called_iff {key : MemoKey} : .called r key ∈ visits ↔ (m.find? key).isSome
  called_of_invoked {key : MemoKey} : .invoked r key ∈ visits → .called r key ∈ visits
  count_le (key : MemoKey) : visits.count (.invoked r key) ≤ 1
  pending_iff {key : MemoKey} : m.find? key = some .pending ↔ active key

namespace Accounts

/-- Before anything is known, no visits are needed. -/
theorem start (h : m.entries = {}) : m.Accounts r i (fun _ => False) [] where
  input_eq hentry := by
    rw [Memo.find?, h] at hentry
    cases hentry
  nodup := by
    rw [h]
    exact List.nodup_nil
  called_iff := by
    simp [Memo.find?, h]
  called_of_invoked hmem := absurd hmem List.not_mem_nil
  count_le _ := Nat.zero_le 1
  pending_iff := by
    simp [Memo.find?, h]

/-- The accounts of a rule depend on where it is at work. -/
theorem congr_active (h : m.Accounts r i active visits)
    (hactive : ∀ key, active key ↔ active' key) :
    m.Accounts r i active' visits :=
  { h with pending_iff := h.pending_iff.trans (hactive _) }

/-- Visits of other rules do not count. -/
theorem append (h : m.Accounts r i active visits) {v : Visit} (hv : v.rule ≠ r) :
    m.Accounts r i active (visits ++ [v]) := by
  have hne {w : Visit} (hw : w.rule = r) : w ∈ visits ++ [v] ↔ w ∈ visits := by
    rw [List.mem_append, List.mem_singleton]
    refine or_iff_left ?_
    rintro rfl
    exact hv hw
  refine { h with called_iff := ?_, called_of_invoked := ?_, count_le := ?_ }
  · intro key
    rw [hne rfl, h.called_iff]
  · intro key
    rw [hne rfl, hne rfl]
    exact h.called_of_invoked
  · intro key
    have hv' : v ≠ .invoked r key := by
      rintro rfl
      exact hv rfl
    simpa [List.count_append, List.count_singleton, hv'] using h.count_le key

/-- A call of the rule where it was called before changes nothing. -/
theorem append_called (h : m.Accounts r i active visits) (hcalled : .called r key ∈ visits) :
    m.Accounts r i active (visits ++ [.called r key]) := by
  have hsame {w : Visit} : w ∈ visits ++ [.called r key] ↔ w ∈ visits := by
    rw [List.mem_append, List.mem_singleton]
    refine or_iff_left_of_imp ?_
    rintro rfl
    exact hcalled
  refine { h with called_iff := ?_, called_of_invoked := ?_, count_le := ?_ }
  · intro key'
    rw [hsame, h.called_iff]
  · intro key'
    rw [hsame, hsame]
    exact h.called_of_invoked
  · intro key'
    simpa [List.count_append, List.count_singleton] using h.count_le key'

/-- Turning to the input forgets nothing. -/
theorem find?_enter (h : m.Accounts r i active visits) (key : MemoKey) :
    (m.enter i).find? key = m.find? key := by
  rw [enter]
  split
  · rfl
  · rename_i hinput
    rcases hentry : m.find? key with _ | e
    · rfl
    · exact absurd (h.input_eq hentry).2 hinput

/-- Turning to the input that the accounts are of leaves them right. -/
theorem enter (h : m.Accounts r i active visits) : (m.enter i).Accounts r i active visits where
  input_eq hentry := by
    rw [h.find?_enter] at hentry
    exact ⟨(h.input_eq hentry).1, Session.input_enter m i⟩
  nodup := by
    rw [Memo.enter]
    split
    · exact h.nodup
    · exact List.nodup_nil
  called_iff {_} := by
    rw [h.find?_enter]
    exact h.called_iff
  called_of_invoked := h.called_of_invoked
  count_le := h.count_le
  pending_iff {_} := by
    rw [h.find?_enter]
    exact h.pending_iff

/-- A memo finds what was inserted last at a key. -/
theorem find?_insert (m : Memo C ρ) (key key' : MemoKey) (e : MemoEntry C ρ) :
    (m.insert key e).find? key' = if key' = key then some e else m.find? key' :=
  Table.find?_insert _ _ _ _

/-- A rule that is called where it knew nothing is at work there, and its parser is run. -/
theorem call (h : m.Accounts r i active visits) (hinput : m.input = some i)
    (hnone : m.find? key = none) (hi : key.1 = i) :
    (m.insert key .pending).Accounts r i (fun key' => active key' ∨ key' = key)
      (visits ++ [.called r key] ++ [.invoked r key]) := by
  have hcalled {key' : MemoKey} : .called r key' ∈ visits ++ [.called r key] ++ [.invoked r key] ↔
      .called r key' ∈ visits ∨ key' = key := by
    simp
  have hinvoked {key' : MemoKey} : .invoked r key' ∈ visits ++ [.called r key] ++ [.invoked r key] ↔
      .invoked r key' ∈ visits ∨ key' = key := by
    simp
  constructor
  case input_eq =>
    intro key' e hentry
    rw [find?_insert] at hentry
    split at hentry
    · exact ⟨‹key' = key› ▸ hi, hinput⟩
    · exact ⟨(h.input_eq hentry).1, hinput⟩
  case nodup => exact Table.nodup_keys_insert h.nodup key _
  case called_iff =>
    intro key'
    rw [hcalled, h.called_iff, find?_insert]
    split <;> simp [*]
  case called_of_invoked =>
    intro key'
    rw [hcalled, hinvoked]
    exact Or.imp_left h.called_of_invoked
  case count_le =>
    intro key'
    by_cases hkey : key' = key
    · -- the parser was not run before, since the rule was not even called
      have hfirst : visits.count (.invoked r key') = 0 := by
        refine List.count_eq_zero.mpr fun hmem => ?_
        have hsome := h.called_iff.mp (h.called_of_invoked hmem)
        rw [hkey, hnone] at hsome
        cases hsome
      rw [← hkey]
      simp [List.count_append, hfirst]
    · have hold := h.count_le key'
      simpa [List.count_append, List.count_singleton, Ne.symm hkey] using hold
  case pending_iff =>
    intro key'
    rw [find?_insert]
    split
    · simp [*]
    · simp [*, h.pending_iff]

/-- A rule that gets its outcome is no longer at work. -/
theorem resolve (h : m.Accounts r i (fun key' => active key' ∨ key' = key) visits)
    (hactive : ¬active key) (o : Outcome C ρ) :
    (m.insert key (.resolved o)).Accounts r i active visits := by
  have hpending : m.find? key = some .pending := h.pending_iff.mpr (.inr rfl)
  refine { h with input_eq := ?_, nodup := ?_, called_iff := ?_, pending_iff := ?_ }
  · intro key' e hentry
    rw [find?_insert] at hentry
    split at hentry
    · rename_i hkey
      rw [hkey]
      exact h.input_eq hpending
    · exact h.input_eq hentry
  · exact Table.nodup_keys_insert h.nodup key _
  · intro key'
    rw [h.called_iff, find?_insert]
    split
    · rename_i hkey
      rw [hkey, hpending]
      rfl
    · rfl
  · intro key'
    rw [find?_insert]
    split
    · rename_i hkey
      rw [hkey]
      exact iff_of_false (by simp) hactive
    · rename_i hkey
      rw [h.pending_iff]
      exact or_iff_left hkey

end Accounts

end Memo

/-! ## All rules -/

namespace Session

variable {C ρ : Type} {rules : List RuleId} {i : InputId} {active : RuleId → MemoKey → Prop}
  {s t : Session C ρ} {visits : List Visit} {r : RuleId} {key : MemoKey}

/-- Whether what some rules know of an input agrees with the visits of them. -/
def Accounts (rules : List RuleId) (i : InputId) (active : RuleId → MemoKey → Prop)
    (s : Session C ρ) (visits : List Visit) : Prop :=
  ∀ r ∈ rules, (s.memo r).Accounts r i (active r) visits

/-- A call of one rule leaves the memos of others alone. -/
theorem memo_call_of_ne {r' : RuleId} (hne : r' ≠ r) : (s.call r key).2.memo r' = s.memo r' := by
  rw [call, memo_setMemo, if_neg hne]

/-- Resolving a call of one rule leaves the memos of others alone. -/
theorem memo_resolveCall_of_ne {r' : RuleId} (hne : r' ≠ r) {o : Outcome C ρ} :
    (s.resolveCall r key o).memo r' = s.memo r' := by
  rw [resolveCall, memo_setMemo, if_neg hne]

namespace Accounts

/-- Where rules know nothing and were not visited, the accounts are right. -/
theorem start (h : ∀ r ∈ rules, (s.memo r).entries = {}) :
    s.Accounts rules i (fun _ _ => False) [] :=
  fun r hr => .start (h r hr)

/-- The accounts depend on the memos of a session only. -/
theorem of_memos (h : s.Accounts rules i active visits) (hst : t.memos = s.memos) :
    t.Accounts rules i active visits := by
  intro r hr
  rw [memo, hst]
  exact h r hr

/-- The visits of other rules do not count. -/
theorem append_of_not_mem (h : s.Accounts rules i active visits) (hr : r ∉ rules) (key : MemoKey) :
    s.Accounts rules i active (visits ++ [.called r key] ++ [.invoked r key]) := by
  intro r' hr'
  have hne : r ≠ r' := fun heq => hr (heq ▸ hr')
  exact ((h r' hr').append (v := .called r key) hne).append hne

/-- A call that is answered from the memo is written down as a call only. -/
theorem call_of_lookup (h : s.Accounts rules i active visits) (hi : key.1 = i) {e : MemoEntry C ρ}
    (he : s.lookup r key = some e) :
    (s.call r key).2.Accounts rules i active (visits ++ [.called r key]) := by
  intro r' hr'
  by_cases hne : r' = r
  · subst hne hi
    have hentered := (h r' hr').enter
    rw [Session.call, memo_setMemo, if_pos rfl, he, Option.isSome_some, if_pos rfl]
    refine hentered.append_called (hentered.called_iff.mpr ?_)
    exact Option.isSome_iff_exists.mpr ⟨e, he⟩
  · rw [memo_call_of_ne hne]
    exact (h r' hr').append (Ne.symm hne)

/-- A rule is not at work where it knows nothing. -/
theorem not_active (h : s.Accounts rules i active visits) (hr : r ∈ rules) (hi : key.1 = i)
    (hnone : s.lookup r key = none) : ¬active r key := by
  subst hi
  rw [← (h r hr).enter.pending_iff]
  intro hpending
  cases hnone.symm.trans hpending

/-- A call that is not answered from the memo is written down, and the rule is at work there. -/
theorem call (h : s.Accounts rules i active visits) (hi : key.1 = i)
    (hnone : s.lookup r key = none) :
    (s.call r key).2.Accounts rules i (fun r' key' => active r' key' ∨ (r' = r ∧ key' = key))
      (visits ++ [.called r key] ++ [.invoked r key]) := by
  intro r' hr'
  by_cases hne : r' = r
  · subst hne hi
    rw [Session.call, memo_setMemo, if_pos rfl, hnone]
    refine ((h r' hr').enter.call (input_enter _ _) hnone rfl).congr_active fun key' => ?_
    simp
  · rw [memo_call_of_ne hne]
    refine Memo.Accounts.congr_active (((h r' hr').append ?_).append ?_) fun key' => ?_
    · exact Ne.symm hne
    · exact Ne.symm hne
    · simp [hne]

/-- When a call is resolved, the rule is no longer at work there. -/
theorem resolveCall (h : s.Accounts rules i
      (fun r' key' => active r' key' ∨ (r' = r ∧ key' = key)) visits)
    (hactive : r ∈ rules → ¬active r key) (o : Outcome C ρ) :
    (s.resolveCall r key o).Accounts rules i active visits := by
  intro r' hr'
  by_cases hne : r' = r
  · subst hne
    rw [Session.resolveCall, memo_setMemo, if_pos rfl]
    refine Memo.Accounts.resolve ((h r' hr').congr_active fun key' => ?_) (hactive hr') o
    simp
  · rw [memo_resolveCall_of_ne hne]
    refine (h r' hr').congr_active fun key' => ?_
    simp [hne]

end Accounts

end Session

end Parsing
