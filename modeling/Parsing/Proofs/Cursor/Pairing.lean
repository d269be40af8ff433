import Parsing.Parser.Session
import Parsing.Proofs.Cursor.Progress
import Parsing.Proofs.Recognizer.Simulation

/-!
# Cursors in step

A cursor stands before a list of tokens (`Cursor.Listed`): with every step the first of them is
gone, and the location has moved over it. Two cursors that stand before the same tokens can go on in
step (`Cursor.InStep`). They see the same tokens all along, and although they may count positions in
different units, they agree on whether a position has changed. A `Pairing` is a set of pairs of
cursors of which that is true; places in it are told apart by input and position, so what a rule
remembers of a place can be compared with what it remembers of the other one.
-/

namespace Parsing

open Cursor

/-- Cursors that pass a list of tokens one by one. -/
class Cursor.Listed (C : Type) {T : outParam Type} [Cursor C T] [Cursor.Lawful C] [Newline T] where
  /-- The tokens that are left. -/
  tokens : C → List T
  length_tokens (c : C) : (tokens c).length = Lawful.remaining c
  tokens_next (c : C) : tokens (Cursor.next c) = (tokens c).tail
  current_eq (c : C) : Cursor.current c = (tokens c).head?
  isEmpty_eq (c : C) : Cursor.isEmpty c = (tokens c).isEmpty
  location_next {c : C} {t : T} {ts : List T} : tokens c = t :: ts →
    Cursor.location (Cursor.next c) = (Cursor.location c).advance t

instance : Cursor.Listed TextReader where
  tokens := TextReader.rest
  length_tokens _ := rfl
  tokens_next c := by
    change c.next.rest = c.rest.tail
    cases h : c.rest <;> simp [TextReader.next, h]
  current_eq _ := rfl
  isEmpty_eq c := by
    change (c.rest.head?).isNone = c.rest.isEmpty
    cases c.rest <;> rfl
  location_next {c t ts} h := by
    change c.next.location = c.location.advance t
    have hrest : c.rest = t :: ts := h
    simp [TextReader.next, hrest]

instance : Cursor.Listed PlainReader where
  tokens c := c.inner.rest
  length_tokens _ := rfl
  tokens_next c := Listed.tokens_next c.inner
  current_eq _ := rfl
  isEmpty_eq c := Listed.isEmpty_eq c.inner
  location_next {c _ _} h := Listed.location_next (c := c.inner) h

instance {T : Type} [Newline T] : Cursor.Listed (TokenReader T) where
  tokens := TokenReader.rest
  length_tokens _ := rfl
  tokens_next c := by
    change c.next.rest = c.rest.tail
    cases h : c.rest <;> simp [TokenReader.next, h]
  current_eq _ := rfl
  isEmpty_eq _ := rfl
  location_next {c t ts} h := by
    change c.next.location = c.location.advance t
    have hrest : c.rest = t :: ts := h
    simp [TokenReader.next, hrest]

namespace Cursor

/-! ## Several steps -/

section Steps

variable {C T : Type} [Cursor C T] [Cursor.Lawful C] {c : C}

/-- More steps than there are tokens lead to the end and no further. -/
theorem iterate_next_min (c : C) (n : ℕ) :
    Cursor.next^[n] c = Cursor.next^[min n (Lawful.remaining c)] c := by
  rcases Nat.le_total n (Lawful.remaining c) with hn | hn
  · rw [Nat.min_eq_left hn]
  · have hend : Lawful.remaining (Cursor.next^[Lawful.remaining c] c) = 0 := by
      rw [remaining_iterate_next, Nat.sub_self]
    rw [Nat.min_eq_right hn, ← Nat.sub_add_cancel hn, Function.iterate_add_apply,
      iterate_next_eq_self hend]

/-- Two numbers of steps lead to the same place only if they pass equally many tokens. -/
theorem iterate_next_eq_iff {n m : ℕ} : Cursor.next^[n] c = Cursor.next^[m] c ↔
    min n (Lawful.remaining c) = min m (Lawful.remaining c) := by
  constructor
  · intro h
    have hremaining := congrArg Lawful.remaining h
    rw [remaining_iterate_next, remaining_iterate_next] at hremaining
    omega
  · intro h
    rw [iterate_next_min, h, ← iterate_next_min]

/-- Behind more tokens the position is greater. -/
theorem position_iterate_next_lt {n m : ℕ} (h : n < m) (hm : m ≤ Lawful.remaining c) :
    Cursor.position (Cursor.next^[n] c) < Cursor.position (Cursor.next^[m] c) := by
  have hleft : Lawful.remaining (Cursor.next^[n] c) ≠ 0 := by
    rw [remaining_iterate_next]
    omega
  have hafter : After (Cursor.next (Cursor.next^[n] c)) (Cursor.next^[m] c) := by
    refine ⟨m - (n + 1), ?_⟩
    rw [← Function.iterate_succ_apply' Cursor.next, ← Function.iterate_add_apply,
      Nat.sub_add_cancel h]
  exact Nat.lt_of_lt_of_le (Lawful.position_lt_position_next hleft) hafter.position_le

variable [Newline T] [Cursor.Listed C]

/-- Behind `n` tokens, the tokens that are left are those without the first `n`. -/
theorem tokens_iterate_next (c : C) (n : ℕ) :
    Listed.tokens (Cursor.next^[n] c) = (Listed.tokens c).drop n := by
  induction n with
  | zero => rfl
  | succ n ih => rw [Function.iterate_succ_apply', Listed.tokens_next, ih, List.tail_drop]

/-- Before the same tokens, the same number of steps leads before the same tokens again. -/
theorem tokens_iterate_eq {D : Type} [Cursor D T] [Cursor.Lawful D] [Cursor.Listed D] {d : D}
    (h : Listed.tokens c = Listed.tokens d) (n : ℕ) :
    Listed.tokens (Cursor.next^[n] c) = Listed.tokens (Cursor.next^[n] d) := by
  rw [tokens_iterate_next, tokens_iterate_next, h]

/-- Several steps move the location over the tokens that they pass. -/
theorem location_iterate_next (c : C) (n : ℕ) : Cursor.location (Cursor.next^[n] c) =
    (Cursor.location c).advanceBy ((Listed.tokens c).take n) := by
  induction n generalizing c with
  | zero => rfl
  | succ n ih =>
    rw [Function.iterate_succ_apply, ih]
    rcases htokens : Listed.tokens c with _ | ⟨t, ts⟩
    · have hend : Lawful.remaining c = 0 := by rw [← Listed.length_tokens, htokens, List.length_nil]
      rw [Lawful.next_eq_self hend, htokens, List.take_nil, List.take_nil]
    · rw [Listed.location_next htokens, Listed.tokens_next, htokens, List.tail_cons,
        List.take_succ_cons, Location.advanceBy_cons]

end Steps

/-! ## Two cursors -/

section InStep

variable {C D T U : Type} [Cursor C T] [Cursor D U] {c c' c'' : C} {d d' d'' : D}

/-- Whether two cursors are reached from two others by the same number of steps. -/
def InStep (c : C) (d : D) (c' : C) (d' : D) : Prop :=
  ∃ n : ℕ, c' = Cursor.next^[n] c ∧ d' = Cursor.next^[n] d

/-- No steps are in step with no steps. -/
theorem InStep.refl (c : C) (d : D) : InStep c d c d :=
  ⟨0, rfl, rfl⟩

/-- Steps in step may follow one another. -/
theorem InStep.trans (h : InStep c d c' d') (h' : InStep c' d' c'' d'') : InStep c d c'' d'' := by
  obtain ⟨n, rfl, rfl⟩ := h
  obtain ⟨m, rfl, rfl⟩ := h'
  exact ⟨m + n, (Function.iterate_add_apply _ _ _ _).symm,
    (Function.iterate_add_apply _ _ _ _).symm⟩

/-- One step on each side is in step. -/
theorem inStep_next (c : C) (d : D) : InStep c d (Cursor.next c) (Cursor.next d) :=
  ⟨1, rfl, rfl⟩

/-- On the left, what is in step comes after the start. -/
theorem InStep.after_left (h : InStep c d c' d') : After c c' := by
  obtain ⟨n, hc, -⟩ := h
  exact ⟨n, hc⟩

/-- On the right, what is in step comes after the start. -/
theorem InStep.after_right (h : InStep c d c' d') : After d d' := by
  obtain ⟨n, -, hd⟩ := h
  exact ⟨n, hd⟩

end InStep

end Cursor

/-! ## Pairings -/

/-- Pairs of cursors that see the same tokens and can go on in step. -/
structure Pairing (C D : Type) {T : outParam Type} [Cursor C T] [Cursor D T] where
  paired : C → D → Prop
  paired_next {c : C} {d : D} : paired c d → paired (Cursor.next c) (Cursor.next d)
  current_eq {c : C} {d : D} : paired c d → Cursor.current c = Cursor.current d
  isEmpty_eq {c : C} {d : D} : paired c d → Cursor.isEmpty c = Cursor.isEmpty d
  input_eq_iff {c c' : C} {d d' : D} : paired c d → paired c' d' →
    (Cursor.input c = Cursor.input c' ↔ Cursor.input d = Cursor.input d')
  eq_of_key_left {c c' : C} {d d' : D} : paired c d → paired c' d' →
    Cursor.key c = Cursor.key c' → c = c' ∧ d = d'
  eq_of_key_right {c c' : C} {d d' : D} : paired c d → paired c' d' →
    Cursor.key d = Cursor.key d' → c = c' ∧ d = d'

namespace Pairing

variable {C D T : Type} [Cursor C T] [Cursor D T] (K : Pairing C D) {c c' : C} {d d' : D}

/-- Cursors that are paired are still paired after as many steps on both sides. -/
theorem paired_of_inStep (h : K.paired c d) (hstep : InStep c d c' d') : K.paired c' d' := by
  obtain ⟨n, rfl, rfl⟩ := hstep
  induction n with
  | zero => exact h
  | succ n ih =>
    rw [Function.iterate_succ_apply', Function.iterate_succ_apply']
    exact K.paired_next ih

variable {K} in
/-- Two pairs are at the same place on the one side if they are on the other. -/
theorem key_eq_iff (h : K.paired c d) (h' : K.paired c' d') :
    Cursor.key c = Cursor.key c' ↔ Cursor.key d = Cursor.key d' := by
  constructor
  · intro hkey
    rw [(K.eq_of_key_left h h' hkey).2]
  · intro hkey
    rw [(K.eq_of_key_right h h' hkey).1]

variable [Cursor.Lawful C] [Cursor.Lawful D]

/-- What is reached in step from a pair belongs together, and so do the locations there. -/
def ahead (h : K.paired c d) : Correspondence C D where
  cursor := InStep c d
  location l l' := ∃ e f, InStep c d e f ∧ l = Cursor.location e ∧ l' = Cursor.location f
  location_of_cursor hstep := ⟨_, _, hstep, rfl, rfl⟩
  isEmpty_eq hstep := K.isEmpty_eq (K.paired_of_inStep h hstep)
  position_eq_iff {e e' f f'} hstep hstep' := by
    have hinput : Cursor.input e' = Cursor.input e :=
      hstep'.after_left.input_eq.trans hstep.after_left.input_eq.symm
    have hinput' : Cursor.input f' = Cursor.input f :=
      hstep'.after_right.input_eq.trans hstep.after_right.input_eq.symm
    have hkey := key_eq_iff (K.paired_of_inStep h hstep') (K.paired_of_inStep h hstep)
    simpa only [Cursor.key, Prod.mk.injEq, hinput, hinput', true_and] using hkey

variable [Newline T] [Cursor.Listed C] [Cursor.Listed D]

/-- Two cursors that stand before the same tokens, and all that is reached from them in step. -/
def along (c : C) (d : D) (h : Listed.tokens c = Listed.tokens d) : Pairing C D where
  paired := InStep c d
  paired_next hstep := hstep.trans (inStep_next _ _)
  current_eq := by
    rintro _ _ ⟨n, rfl, rfl⟩
    rw [Listed.current_eq, Listed.current_eq, tokens_iterate_eq h]
  isEmpty_eq := by
    rintro _ _ ⟨n, rfl, rfl⟩
    rw [Listed.isEmpty_eq, Listed.isEmpty_eq, tokens_iterate_eq h]
  input_eq_iff hstep hstep' := by
    rw [hstep.after_left.input_eq, hstep'.after_left.input_eq, hstep.after_right.input_eq,
      hstep'.after_right.input_eq]
    exact iff_of_true rfl rfl
  eq_of_key_left := by
    rintro _ _ _ _ ⟨n, rfl, rfl⟩ ⟨m, rfl, rfl⟩ hkey
    have heq := After.eq_of_position_eq_position ⟨n, rfl⟩ ⟨m, rfl⟩ (congrArg Prod.snd hkey)
    refine ⟨heq, ?_⟩
    rw [iterate_next_eq_iff, ← Listed.length_tokens] at heq ⊢
    rwa [← h]
  eq_of_key_right := by
    rintro _ _ _ _ ⟨n, rfl, rfl⟩ ⟨m, rfl, rfl⟩ hkey
    have heq := After.eq_of_position_eq_position ⟨n, rfl⟩ ⟨m, rfl⟩ (congrArg Prod.snd hkey)
    refine ⟨?_, heq⟩
    rw [iterate_next_eq_iff, ← Listed.length_tokens] at heq ⊢
    rwa [h]

end Pairing

end Parsing
