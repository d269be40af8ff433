import Parsing.Proofs.Cursor.Pairing
import Parsing.Recognizer.Span

/-!
# Stretches of input

Which tokens stand in a span is a matter of their positions in the input (`Span.tokens`). In the
span between two cursors these are the tokens that lie between them
(`Span.tokens_eq_append_of_between`), whatever the unit of positions is, since every token moves the
position. Spans may lie within one another, and they may follow one another without a gap
(`Span.Tile`).
-/

namespace Parsing

open Cursor

/-- Where a cursor stands, in both ways of counting. -/
def Cursor.place {C T : Type} [Cursor C T] (c : C) : Location × ℕ :=
  (Cursor.location c, Cursor.position c)

/-! ## Positions and steps -/

section Positions

variable {C T : Type} [Cursor C T] [Cursor.Lawful C] {c : C} {n m : ℕ}

/-- Up to the end of the input, positions are in the order of the steps. -/
theorem Cursor.position_iterate_next_le_iff (hn : n ≤ Lawful.remaining c)
    (hm : m ≤ Lawful.remaining c) :
    Cursor.position (Cursor.next^[n] c) ≤ Cursor.position (Cursor.next^[m] c) ↔ n ≤ m := by
  rcases Nat.lt_or_ge m n with h | h
  · have hlt := position_iterate_next_lt h hn
    exact ⟨fun hle => absurd hle (Nat.not_le.mpr hlt), fun hle => absurd hle (Nat.not_le.mpr h)⟩
  · rcases Nat.eq_or_lt_of_le h with rfl | h
    · simp
    · exact ⟨fun _ => Nat.le_of_lt h, fun _ => Nat.le_of_lt (position_iterate_next_lt h hm)⟩

end Positions

namespace Span

/-! ## Tokens in a span -/

/-- Whether the token at a position stands in the span. -/
def Contains (span : Span) (position : ℕ) : Prop :=
  span.startPosition ≤ position ∧ position < span.stopPosition

instance (span : Span) (position : ℕ) : Decidable (span.Contains position) :=
  inferInstanceAs (Decidable (_ ∧ _))

section Tokens

variable {C T : Type} [Cursor C T] [Cursor.Lawful C] {base c d : C} {n m i : ℕ}

/-- Between two cursors stand the tokens that are reached with at least as many steps as the one and
fewer than the other. -/
theorem contains_between_iff (hn : n ≤ Lawful.remaining c) (hm : m ≤ Lawful.remaining c)
    (hi : i ≤ Lawful.remaining c) :
    (between (Cursor.next^[n] c) (Cursor.next^[m] c)).Contains
      (Cursor.position (Cursor.next^[i] c)) ↔ n ≤ i ∧ i < m := by
  unfold Contains between
  rw [position_iterate_next_le_iff hn hi, ← Nat.not_le, position_iterate_next_le_iff hm hi,
    Nat.not_le]

variable [Newline T] [Cursor.Listed C]

/-- The tokens behind a cursor that stand in the span. -/
def tokens (span : Span) (c : C) : List T :=
  ((Listed.tokens c).zipIdx.filter fun x =>
    span.Contains (Cursor.position (Cursor.next^[x.2] c))).map Prod.fst

/-- Between two places of an input are the tokens that were passed on the way from one to the
other. -/
theorem tokens_between_of_eq {front read rest : List T}
    (h : Listed.tokens c = front ++ (read ++ rest)) :
    (between (Cursor.next^[front.length] c) (Cursor.next^[front.length + read.length] c)).tokens c =
      read := by
  have hlength : front.length + (read.length + rest.length) = Lawful.remaining c := by
    rw [← Listed.length_tokens, h, List.length_append, List.length_append]
  have hcontains {k : ℕ} (hk : k ≤ Lawful.remaining c) :=
    contains_between_iff (c := c) (n := front.length) (m := front.length + read.length) (i := k)
      (by omega) (by omega) hk
  rw [tokens, h, List.zipIdx_append, List.zipIdx_append, List.filter_append, List.filter_append,
    Nat.zero_add, List.filter_eq_nil_iff.mpr, List.filter_eq_self.mpr, List.filter_eq_nil_iff.mpr,
    List.nil_append, List.append_nil, List.zipIdx_map_fst]
  · -- what is behind the second cursor
    intro x hx
    have hle := List.le_snd_of_mem_zipIdx hx
    have hlt := List.snd_lt_add_of_mem_zipIdx hx
    rw [decide_eq_true_eq, hcontains (by omega)]
    omega
  · intro x hx
    have hle := List.le_snd_of_mem_zipIdx hx
    have hlt := List.snd_lt_add_of_mem_zipIdx hx
    rw [decide_eq_true_eq, hcontains (by omega)]
    omega
  · -- what is in front of the first one
    intro x hx
    have hlt := List.snd_lt_of_mem_zipIdx hx
    rw [decide_eq_true_eq, hcontains (by omega)]
    omega

/-- In front of the tokens at the second cursor, those at the first one are those of the span. -/
theorem tokens_eq_append_of_between (hc : After base c) (hd : After c d) :
    Listed.tokens c = (between c d).tokens base ++ Listed.tokens d := by
  obtain ⟨n, hn, rfl⟩ := hc.exists_le_remaining
  obtain ⟨k, hk, rfl⟩ := hd.exists_le_remaining
  have hlength := Listed.length_tokens base
  rw [remaining_iterate_next] at hk
  have hfront : ((Listed.tokens base).take n).length = n := by
    rw [List.length_take]
    omega
  have hread : (((Listed.tokens base).drop n).take k).length = k := by
    rw [List.length_take, List.length_drop]
    omega
  have hsplit : Listed.tokens base = (Listed.tokens base).take n ++
      (((Listed.tokens base).drop n).take k ++ ((Listed.tokens base).drop n).drop k) := by
    rw [List.take_append_drop, List.take_append_drop]
  have htokens := tokens_between_of_eq hsplit
  rw [hfront, hread] at htokens
  rw [← Function.iterate_add_apply, Nat.add_comm k n, htokens, tokens_iterate_next,
    tokens_iterate_next, ← List.drop_drop, List.take_append_drop]

end Tokens

/-! ## Spans and others -/

/-- Whether a span lies within another one. -/
def Within (inner outer : Span) : Prop :=
  outer.startPosition ≤ inner.startPosition ∧ inner.stopPosition ≤ outer.stopPosition

/-- Spans one after another: each starts where the one before it stopped, the first one at the one
place, and the last one stops at the other. -/
inductive Tile : Location × ℕ → List Span → Location × ℕ → Prop where
  | nil (k : Location × ℕ) : Tile k [] k
  | cons (span : Span) {spans : List Span} {k : Location × ℕ}
    (h : Tile (span.stop, span.stopPosition) spans k) :
    Tile (span.start, span.startPosition) (span :: spans) k

end Span

end Parsing
