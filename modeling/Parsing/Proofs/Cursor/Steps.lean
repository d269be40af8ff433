import Parsing.Proofs.Cursor.Pairing

/-!
# Moves as single steps

Every move of a cursor is a number of single steps: skipping tokens (`Cursor.Stepwise`), passing
characters at once, and moving by the bytes of whole characters (`TextCursor.Exact`). So a place is
known by the number of steps that lead to it, and so is its position
(`TextReader.position_iterate_next`, `TokenReader.position_iterate_next`).
-/

namespace Parsing

open Cursor

/-! ## Positions -/

namespace TextReader

/-- Passing characters at once is passing them one by one. -/
theorem passing_eq_iterate {c : TextReader} {read rest : List Char} (h : c.rest = read ++ rest) :
    c.passing read rest = Cursor.next^[read.length] c := by
  obtain ⟨n, hn⟩ := TextReader.after_passing h
  have hdrop : rest = (read ++ rest).drop n := by
    have htokens := tokens_iterate_next c n
    rw [← hn] at htokens
    rw [← h]
    exact htokens
  have hlength := congrArg List.length hdrop
  rw [hn, iterate_next_eq_iff]
  have hremaining : Lawful.remaining c = (read ++ rest).length := congrArg List.length h
  rw [hremaining]
  rw [List.length_drop, List.length_append] at hlength
  rw [List.length_append]
  omega

/-- The position of a text reader grows by the bytes of the characters that it passes. -/
theorem position_iterate_next (c : TextReader) (n : ℕ) :
    (Cursor.next^[n] c).position = c.position + byteLength (c.rest.take n) := by
  induction n generalizing c with
  | zero => rfl
  | succ n ih =>
    rw [Function.iterate_succ_apply, ih]
    change c.next.position + byteLength (c.next.rest.take n) = _
    rcases hrest : c.rest with _ | ⟨t, ts⟩
    · simp [TextReader.next, hrest]
    · simp [TextReader.next, hrest, Nat.add_assoc]

end TextReader

/-- The position of a token reader grows by one for each token that it passes. -/
theorem TokenReader.position_iterate_next {T : Type} [Newline T] (c : TokenReader T) (n : ℕ) :
    (Cursor.next^[n] c).position = c.position + (c.rest.take n).length := by
  induction n generalizing c with
  | zero => rfl
  | succ n ih =>
    rw [Function.iterate_succ_apply, ih]
    change c.next.position + (c.next.rest.take n).length = _
    rcases hrest : c.rest with _ | ⟨t, ts⟩
    · simp [TokenReader.next, hrest]
    · simp [TokenReader.next, hrest, Nat.add_assoc, Nat.add_comm 1]

/-- Plain readers step as the readers inside of them do. -/
theorem PlainReader.iterate_next (c : TextReader) (n : ℕ) :
    Cursor.next^[n] (PlainReader.mk c) = ⟨Cursor.next^[n] c⟩ := by
  induction n generalizing c with
  | zero => rfl
  | succ n ih => exact ih c.next

/-! ## Moves by several tokens -/

/-- Taking steps up to a number is taking that many, since steps at the end lead nowhere. -/
theorem Cursor.stepUpTo_eq_iterate {C T : Type} [Cursor C T] [Cursor.Lawful C] [Newline T]
    [Cursor.Listed C] (n : ℕ) (c : C) :
    stepUpTo Cursor.isEmpty Cursor.next n c = Cursor.next^[n] c := by
  induction n generalizing c with
  | zero => rfl
  | succ n ih =>
    rw [stepUpTo, Function.iterate_succ_apply]
    split
    · rename_i hempty
      rw [Listed.isEmpty_eq, List.isEmpty_iff] at hempty
      have hend : Lawful.remaining c = 0 := by rw [← Listed.length_tokens, hempty, List.length_nil]
      rw [Lawful.next_eq_self hend, iterate_next_eq_self hend]
    · exact ih (Cursor.next c)

/-- Cursors that skip tokens by taking steps. -/
class Cursor.Stepwise (C : Type) {T : outParam Type} [Cursor C T] : Prop where
  skip_eq_iterate (c : C) (n : ℕ) : Cursor.skip c n = Cursor.next^[n] c

instance : Cursor.Stepwise TextReader :=
  ⟨fun c n => Cursor.stepUpTo_eq_iterate n c⟩

instance : Cursor.Stepwise PlainReader :=
  ⟨fun c n => Cursor.stepUpTo_eq_iterate n c⟩

instance {T : Type} [Newline T] : Cursor.Stepwise (TokenReader T) :=
  ⟨fun c n => Cursor.stepUpTo_eq_iterate n c⟩

/-- Skipping twice is skipping once as far as both together. -/
theorem Cursor.skip_skip {C T : Type} [Cursor C T] [Cursor.Stepwise C] (c : C) (n m : ℕ) :
    Cursor.skip (Cursor.skip c n) m = Cursor.skip c (n + m) := by
  simp only [Stepwise.skip_eq_iterate]
  rw [Nat.add_comm, Function.iterate_add_apply]

/-- Text cursors whose moves over whole characters are single steps. -/
class TextCursor.Exact (C : Type) [TextCursor C] [Cursor.Lawful C] [Cursor.Listed C] : Prop where
  rest_eq (c : C) : TextCursor.rest c = Listed.tokens c
  advanceBytes_append {c : C} {read rest : List Char} : TextCursor.rest c = read ++ rest →
    TextCursor.advanceBytes c (byteLength read) = some (Cursor.next^[read.length] c)

instance : TextCursor.Exact TextReader where
  rest_eq _ := rfl
  advanceBytes_append {c read rest} h := by
    have hrest : c.rest = read ++ rest := h
    change (cutBytes? c.rest (byteLength read)).map _ = _
    rw [hrest, cutBytes?_append]
    exact congrArg some (TextReader.passing_eq_iterate hrest)

instance : TextCursor.Exact PlainReader where
  rest_eq _ := rfl
  advanceBytes_append {c read rest} h := by
    change (charactersIn? (TextCursor.rest c) (byteLength read)).map (Cursor.skip c) = _
    rw [h, charactersIn?_append]
    exact congrArg some (Stepwise.skip_eq_iterate c read.length)

/-- Text cursors that move equally far by as many bytes wherever the same text is left. -/
class TextCursor.Uniform (C : Type) [TextCursor C] : Prop where
  rel_advanceBytes {c d : C} : TextCursor.rest c = TextCursor.rest d → ∀ n,
    Option.Rel (InStep c d) (TextCursor.advanceBytes c n) (TextCursor.advanceBytes d n)

instance : TextCursor.Uniform TextReader where
  rel_advanceBytes {c d} h n := by
    have hrest : c.rest = d.rest := h
    change Option.Rel _ ((cutBytes? c.rest n).map fun cut => c.passing cut.1 cut.2)
      ((cutBytes? d.rest n).map fun cut => d.passing cut.1 cut.2)
    rw [← hrest]
    rcases hcut : cutBytes? c.rest n with _ | ⟨read, rest⟩
    · exact .none
    · have hread := eq_append_of_cutBytes? hcut
      refine .some ⟨read.length, TextReader.passing_eq_iterate hread, ?_⟩
      exact TextReader.passing_eq_iterate (hrest.symm.trans hread)

instance : TextCursor.Uniform PlainReader where
  rel_advanceBytes {c d} h n := by
    change Option.Rel _ ((charactersIn? (TextCursor.rest c) n).map (Cursor.skip c))
      ((charactersIn? (TextCursor.rest d) n).map (Cursor.skip d))
    rw [← h]
    rcases charactersIn? (TextCursor.rest c) n with _ | k
    · exact .none
    · exact .some ⟨k, Stepwise.skip_eq_iterate c k, Stepwise.skip_eq_iterate d k⟩

/-- Within what is left, a text is cut behind as many characters as take the bytes. -/
theorem cutBytes?_eq_map {cs : List Char} {n : ℕ} (hn : n ≤ byteLength cs) :
    cutBytes? cs n = (charactersIn? cs n).map fun k => (cs.take k, cs.drop k) := by
  induction cs generalizing n with
  | nil =>
    cases Nat.le_zero.mp hn
    rfl
  | cons t cs ih =>
    cases n with
    | zero => rfl
    | succ n =>
      rw [byteLength_cons] at hn
      rw [cutBytes?, charactersIn?]
      split
      · rw [ih (by omega), Option.map_map, Option.map_map]
        rfl
      · rfl

/-- Moving by bytes in one go is counting the characters and skipping them. -/
theorem TextReader.advanceBytes_eq_map (c : TextReader) {n : ℕ} (hn : n ≤ byteLength c.rest) :
    TextCursor.advanceBytes c n = (charactersIn? c.rest n).map (Cursor.skip c) := by
  change (cutBytes? c.rest n).map _ = _
  rw [cutBytes?_eq_map hn, Option.map_map]
  refine Option.map_congr fun k _ => ?_
  change c.passing (c.rest.take k) (c.rest.drop k) = _
  rw [TextReader.passing_eq_iterate (List.take_append_drop k c.rest).symm,
    Stepwise.skip_eq_iterate, List.length_take]
  exact (iterate_next_min c k).symm

end Parsing
