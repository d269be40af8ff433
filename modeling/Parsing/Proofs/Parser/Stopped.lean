import Parsing.Proofs.Parser.Accounts
import Parsing.Proofs.Parser.Bookkeeping

/-!
# What runs leave behind

A run that stops leaves the rules as they were just then. What is certain nevertheless is that it
has put nothing into memos but entries for the cursors of the input that it read: all entries are of
the input that their rule turned to last (`Session.Placed`), and those of other inputs were there
before (`Session.Forward.lookup_of_lookup_run`). But a rule that was at work when the run stopped
goes on being so: it does not get an outcome any more, since whoever calls it there finds it at work
(`Session.Forward.pending_run`).
-/

namespace Parsing

open Recognizer Cursor

namespace Session

variable {π : Type → Type} {C T ρ α : Type} [Cursor C T] {env : Environment π ρ} {I : Inputs C}
  {i : InputId} {r : RuleId} {key : MemoKey} {s t : Session C ρ} {e : MemoEntry C ρ}

/-! ## Entries and their places -/

/-- Whether all entries of rules are for cursors of the input that the rule turned to last. -/
def Placed (I : Inputs C) (s : Session C ρ) : Prop :=
  ∀ r key e, (s.memo r).find? key = some e →
    (s.memo r).input = some key.1 ∧ ∃ c, I.Has c ∧ Cursor.key c = key

namespace Placed

/-- At first there are no entries. -/
theorem empty (h : s.memos = {}) : s.Placed I := by
  intro r key e hentry
  rw [memo, h] at hentry
  cases hentry

/-- The places of entries depend on the memos of a session only. -/
theorem of_memos (h : s.Placed I) (hst : t.memos = s.memos) : t.Placed I := by
  intro r key e
  rw [memo, hst]
  exact h r key e

/-- What a rule has an entry for is what it knows. -/
theorem lookup_eq (h : s.Placed I) (hentry : (s.memo r).find? key = some e) :
    s.lookup r key = some e :=
  lookup_eq_some_iff.mpr ⟨(h r key e hentry).1, hentry⟩

/-- A call turns its rule to the input of the call, and forgets entries of others. -/
theorem call {c : C} (h : s.Placed I) (hc : I.Has c) (r : RuleId) :
    (s.call r (Cursor.key c)).2.Placed I := by
  intro r' key e hentry
  by_cases hr : r' = r
  · subst hr
    rw [find?_memo_call] at hentry
    rw [input_memo_call]
    split at hentry
    · rename_i hkey
      exact ⟨by rw [hkey], c, hc, hkey.symm⟩
    · unfold Memo.enter at hentry
      split at hentry
      · rename_i hinput
        obtain ⟨hinput', hd⟩ := h r' key e hentry
        exact ⟨hinput.symm.trans hinput', hd⟩
      · cases hentry
  · rw [memo_call_of_ne hr] at hentry ⊢
    exact h r' key e hentry

/-- Resolving a call adds no entry. -/
theorem resolveCall {c : C} (h : s.Placed I) (hc : I.Has c)
    (hsome : (s.lookup r (Cursor.key c)).isSome) (o : Outcome C ρ) :
    (s.resolveCall r (Cursor.key c) o).Placed I := by
  intro r' key e hentry
  by_cases hr : r' = r
  · subst hr
    rw [Session.resolveCall, memo_setMemo, if_pos rfl] at hentry ⊢
    change ((s.memo r').entries.insert (Cursor.key c) _).find? key = some e at hentry
    rw [Table.find?_insert] at hentry
    change (s.memo r').input = some key.1 ∧ _
    split at hentry
    · rename_i hkey
      obtain ⟨e', hsome⟩ := Option.isSome_iff_exists.mp hsome
      exact ⟨hkey ▸ (lookup_eq_some_iff.mp hsome).1, c, hc, hkey.symm⟩
    · exact h r' key e hentry
  · rw [memo_resolveCall_of_ne hr] at hentry ⊢
    exact h r' key e hentry

/-- Each step of a run keeps entries in their place. -/
theorem keptInRuns (env : Environment π ρ) (I : Inputs C) (i : InputId) :
    KeptInRuns env I i fun (s : Session C ρ) _ => s.Placed I where
  of_memos h hst := h.of_memos hst
  pass _ h _ := h
  call r _ h hc _ := h.call hc r
  invoke _ _ h := h
  resolve h hc _ hsome _ _ := h.resolveCall hc hsome _

end Placed

/-! ## Other inputs -/

/-- Nothing comes to be known of other inputs than the one that is read. -/
theorem keptInRuns_elsewhere (env : Environment π ρ) (I : Inputs C) (i : InputId)
    (s : Session C ρ) : KeptInRuns env I i fun t _ =>
      ∀ r key e, key.1 ≠ i → t.lookup r key = some e → s.lookup r key = some e where
  of_memos h hst r key e hi ht := h r key e hi ((lookup_congr hst).symm.trans ht)
  pass _ h _ := h
  call r c h _ hc r' key e hi ht := by
    rcases eq_or_lookup_of_call ht with ⟨-, rfl, -⟩ | ⟨-, ht⟩
    · exact absurd hc hi
    · exact h r' key e hi ht
  invoke _ _ h := h
  resolve h _ hc _ _ _ r' key e hi ht := by
    rcases eq_or_lookup_of_resolveCall ht with ⟨-, rfl, -⟩ | ⟨-, ht⟩
    · exact absurd hc hi
    · exact h r' key e hi ht

/-! ## Rules at work -/

/-- A rule that is at work before a run in the same input is at work afterwards. -/
theorem keptInRuns_pending (env : Environment π ρ) (I : Inputs C) (r : RuleId) (key : MemoKey) :
    KeptInRuns env I key.1 fun (s : Session C ρ) _ => s.lookup r key = some .pending where
  of_memos h hst := (lookup_congr hst).trans h
  pass _ h _ := h
  call {s visits} r' c h _ hc := by
    rw [lookup_call]
    split
    · rename_i hr
      subst hr
      split
      · rename_i hkey
        rw [← hkey, h]
        rfl
      · exact (if_pos hc.symm).trans h
    · exact h
  invoke _ _ h := h
  resolve {s s' visits visits' r' c o} h' _ _ _ h hnone := by
    -- the rule does not get an outcome there, since its call has found it at work
    rw [lookup_resolveCall, if_neg]
    · exact h'
    · rintro ⟨rfl, rfl⟩
      rw [h] at hnone
      cases hnone

/-! ## Runs -/

variable [Cursor.Lawful C] [Primitive π] [Primitive.Runs π C] [Primitive.Lawful π C] {c : C}

/-- Runs keep entries in their place, however they end. -/
theorem Placed.run (h : s.Placed I) (hforward : s.Forward I) (p : Parser π ρ α)
    (env : Environment π ρ) (fuel : Nat) (ctx : Context π ρ) (hc : I.Has c) :
    (p.run env fuel ctx c s).2.Placed I :=
  (Placed.keptInRuns env I (input c)).run h hforward fuel ctx p hc rfl

/-- A run adds nothing to what is known of other inputs. -/
theorem Forward.lookup_of_lookup_run (hforward : s.Forward I) (p : Parser π ρ α)
    (env : Environment π ρ) (fuel : Nat) (ctx : Context π ρ) (hc : I.Has c) (hi : key.1 ≠ input c)
    (h : (p.run env fuel ctx c s).2.lookup r key = some e) : s.lookup r key = some e :=
  (keptInRuns_elsewhere env I (input c) s).run (fun _ _ _ _ h => h) hforward fuel ctx p hc rfl
    r key e hi h

/-- A place that is marked as at work is still so after a run, however that ends. -/
theorem Forward.pending_run (hforward : s.Forward I) (p : Parser π ρ α) (env : Environment π ρ)
    (fuel : Nat) (ctx : Context π ρ) (hc : I.Has c) (hi : input c = key.1)
    (h : s.lookup r key = some .pending) :
    (p.run env fuel ctx c s).2.lookup r key = some .pending :=
  (keptInRuns_pending env I r key).run h hforward fuel ctx p hc hi

end Session

end Parsing
