import Mathlib.Logic.Function.Iterate
import Parsing.Cursor.Text
import Parsing.Cursor.Tokens
import Parsing.Parser.Primitive

/-!
# Moving forward

`After c d` says that `d` is reached from `c` by single steps. Over a finite input (`Cursor.Lawful`)
a position tells how many steps were taken, so that two places after the same one are equal as soon
as their positions are (`After.eq_of_position_eq`), and a move that changes the position leaves
fewer tokens (`After.remaining_lt`).

Both families of primitive parsers only move forward, at every kind of cursor (`Primitive.Lawful`).
-/

namespace Parsing

/-- Cursors over a finite input, where every step passes one token. -/
class Cursor.Lawful (C : Type) {T : outParam Type} [Cursor C T] where
  /-- How many tokens are left. -/
  remaining : C → ℕ
  remaining_next (c : C) : remaining (Cursor.next c) = remaining c - 1
  next_eq_self {c : C} : remaining c = 0 → Cursor.next c = c
  position_lt_position_next {c : C} :
    remaining c ≠ 0 → Cursor.position c < Cursor.position (Cursor.next c)
  input_next (c : C) : Cursor.input (Cursor.next c) = Cursor.input c

namespace Cursor

section After

variable {C T : Type} [Cursor C T] {c d e : C}

/-- Whether a cursor is reached from another one by taking steps. -/
def After (c d : C) : Prop :=
  ∃ n : ℕ, d = Cursor.next^[n] c

/-- A cursor comes after itself. -/
theorem After.refl (c : C) : After c c :=
  ⟨0, rfl⟩

/-- What comes after a cursor does so after one more step. -/
theorem After.next (h : After c d) : After c (Cursor.next d) := by
  obtain ⟨n, rfl⟩ := h
  exact ⟨n + 1, (Function.iterate_succ_apply' _ _ _).symm⟩

/-- What comes after something that comes after a cursor comes after the cursor. -/
theorem After.trans (hcd : After c d) (hde : After d e) : After c e := by
  obtain ⟨n, rfl⟩ := hcd
  obtain ⟨m, rfl⟩ := hde
  exact ⟨m + n, (Function.iterate_add_apply _ _ _ _).symm⟩

/-- Taking steps up to a number, or to the end. -/
theorem after_stepUpTo (isEmpty : C → Bool) (n : ℕ) (c : C) :
    After c (stepUpTo isEmpty Cursor.next n c) := by
  induction n generalizing c with
  | zero => exact After.refl c
  | succ n ih =>
    rw [stepUpTo]
    split
    · exact After.refl c
    · exact (After.refl c).next.trans (ih _)

/-- Of two cursors reached from the same one, one is reached from the other. -/
theorem After.total (hd : After c d) (he : After c e) : After d e ∨ After e d := by
  obtain ⟨n, rfl⟩ := hd
  obtain ⟨m, rfl⟩ := he
  rcases Nat.le_total n m with h | h
  · exact Or.inl ⟨m - n, by rw [← Function.iterate_add_apply, Nat.sub_add_cancel h]⟩
  · exact Or.inr ⟨n - m, by rw [← Function.iterate_add_apply, Nat.sub_add_cancel h]⟩

end After

section Lawful

variable {C T : Type} [Cursor C T] [Cursor.Lawful C] {c d e : C}

open Lawful

/-- A step never leads to a smaller position. -/
theorem position_le_position_next (c : C) :
    Cursor.position c ≤ Cursor.position (Cursor.next c) := by
  by_cases h : remaining c = 0
  · exact Nat.le_of_eq (by rw [next_eq_self h])
  · exact Nat.le_of_lt (position_lt_position_next h)

/-- A step at the end leads nowhere, so neither do several. -/
theorem iterate_next_eq_self (h : remaining c = 0) (n : ℕ) : Cursor.next^[n] c = c :=
  Function.iterate_fixed (next_eq_self h) n

/-- No step leads into another input. -/
theorem After.input_eq (h : After c d) : Cursor.input d = Cursor.input c := by
  obtain ⟨n, rfl⟩ := h
  induction n with
  | zero => rfl
  | succ n ih => rw [Function.iterate_succ_apply', input_next, ih]

/-- What comes after a cursor has no smaller position. -/
theorem After.position_le (h : After c d) : Cursor.position c ≤ Cursor.position d := by
  obtain ⟨n, rfl⟩ := h
  induction n with
  | zero => exact Nat.le_refl _
  | succ n ih =>
    rw [Function.iterate_succ_apply']
    exact Nat.le_trans ih (position_le_position_next _)

/-- What comes after a cursor has no more tokens left. -/
theorem After.remaining_le (h : After c d) : remaining d ≤ remaining c := by
  obtain ⟨n, rfl⟩ := h
  induction n with
  | zero => exact Nat.le_refl _
  | succ n ih =>
    rw [Function.iterate_succ_apply', remaining_next]
    omega

/-- Each step leaves one token less, until none is left. -/
theorem remaining_iterate_next (c : C) (n : ℕ) :
    remaining (Cursor.next^[n] c) = remaining c - n := by
  induction n with
  | zero => rfl
  | succ n ih =>
    rw [Function.iterate_succ_apply', remaining_next, ih]
    omega

/-- There are no more places ahead than tokens. -/
theorem After.exists_le_remaining (h : After c d) : ∃ n ≤ remaining c, d = Cursor.next^[n] c := by
  obtain ⟨n, rfl⟩ := h
  rcases Nat.le_total n (remaining c) with hn | hn
  · exact ⟨n, hn, rfl⟩
  · -- the steps behind the last token lead nowhere
    refine ⟨remaining c, Nat.le_refl _, ?_⟩
    have hend : remaining (Cursor.next^[remaining c] c) = 0 := by
      rw [remaining_iterate_next, Nat.sub_self]
    rw [← Nat.sub_add_cancel hn, Function.iterate_add_apply]
    exact iterate_next_eq_self hend _

/-- A move that leaves the position as it was has not moved at all. -/
theorem After.eq_of_position_eq (h : After c d) (hp : Cursor.position d = Cursor.position c) :
    d = c := by
  obtain ⟨n, rfl⟩ := h
  by_cases hr : remaining c = 0
  · exact iterate_next_eq_self hr n
  · cases n with
    | zero => rfl
    | succ n =>
      rw [Function.iterate_succ_apply] at hp
      have hlt := position_lt_position_next hr
      have hle := After.position_le (c := Cursor.next c) ⟨n, rfl⟩
      omega

/-- A move that changes the position leaves fewer tokens. -/
theorem After.remaining_lt (h : After c d) (hp : Cursor.position d ≠ Cursor.position c) :
    remaining d < remaining c := by
  obtain ⟨n, rfl⟩ := h
  have hr : remaining c ≠ 0 := by
    intro hr
    rw [iterate_next_eq_self hr] at hp
    exact hp rfl
  cases n with
  | zero => exact absurd rfl hp
  | succ n =>
    have hle := After.remaining_le (c := Cursor.next c) ⟨n, rfl⟩
    rw [remaining_next] at hle
    rw [Function.iterate_succ_apply]
    omega

/-- Two cursors reached from the same one are told apart by their positions. -/
theorem After.eq_of_position_eq_position (hd : After c d) (he : After c e)
    (hp : Cursor.position d = Cursor.position e) : d = e := by
  rcases hd.total he with h | h
  · exact (h.eq_of_position_eq hp.symm).symm
  · exact h.eq_of_position_eq hp

/-- Two cursors that are reached from one another are equal. -/
theorem After.antisymm (hcd : After c d) (hdc : After d c) : d = c :=
  hcd.eq_of_position_eq (Nat.le_antisymm hdc.position_le hcd.position_le)

end Lawful

end Cursor

/-! ## The kinds of cursors -/

instance : Cursor.Lawful TextReader where
  remaining c := c.rest.length
  remaining_next c := by
    change c.next.rest.length = _
    cases h : c.rest <;> simp [TextReader.next, h]
  next_eq_self {c} h := by
    change c.next = c
    rw [TextReader.next, List.length_eq_zero_iff.mp h]
  position_lt_position_next {c} h := by
    change c.position < c.next.position
    cases hr : c.rest with
    | nil => simp [hr] at h
    | cons t rest =>
      have := Char.utf8Size_pos t
      simp [TextReader.next, hr]
      omega
  input_next c := by
    change c.next.input = c.input
    cases h : c.rest <;> simp [TextReader.next, h]

instance : Cursor.Lawful PlainReader where
  remaining c := Cursor.Lawful.remaining c.inner
  remaining_next c := Cursor.Lawful.remaining_next c.inner
  next_eq_self {c} h := congrArg PlainReader.mk (Cursor.Lawful.next_eq_self (c := c.inner) h)
  position_lt_position_next {c} h := Cursor.Lawful.position_lt_position_next (c := c.inner) h
  input_next c := Cursor.Lawful.input_next c.inner

instance {T : Type} [Newline T] : Cursor.Lawful (TokenReader T) where
  remaining c := c.rest.length
  remaining_next c := by
    change c.next.rest.length = _
    cases h : c.rest <;> simp [TokenReader.next, h]
  next_eq_self {c} h := by
    change c.next = c
    rw [TokenReader.next, List.length_eq_zero_iff.mp h]
  position_lt_position_next {c} h := by
    change c.position < c.next.position
    cases hr : c.rest with
    | nil => simp [hr] at h
    | cons t rest => simp [TokenReader.next, hr]
  input_next c := by
    change c.next.input = c.input
    cases h : c.rest <;> simp [TokenReader.next, h]

/-! ## Moves by bytes -/

@[simp] theorem byteLength_nil : byteLength [] = 0 := rfl

@[simp] theorem byteLength_cons (t : Char) (cs : List Char) :
    byteLength (t :: cs) = t.utf8Size + byteLength cs := rfl

@[simp] theorem byteLength_append (cs ds : List Char) :
    byteLength (cs ++ ds) = byteLength cs + byteLength ds := by
  induction cs with
  | nil => rw [List.nil_append, byteLength_nil, Nat.zero_add]
  | cons c cs ih => rw [List.cons_append, byteLength_cons, byteLength_cons, ih, Nat.add_assoc]

/-- Text cursors whose moves by bytes are steps, and which can move past any characters. -/
class TextCursor.Lawful (C : Type) [TextCursor C] : Prop where
  after_of_advanceBytes {c d : C} {n : ℕ} :
    TextCursor.advanceBytes c n = some d → Cursor.After c d
  isSome_advanceBytes {c : C} {read rest : List Char} :
    TextCursor.rest c = read ++ rest → (TextCursor.advanceBytes c (byteLength read)).isSome

/-- A text that is not empty begins with a character, whose bytes come off its length. -/
theorem exists_byteLength_cons (t : Char) (cs : List Char) : ∃ n, byteLength (t :: cs) = n + 1 ∧
    t.utf8Size ≤ n + 1 ∧ n + 1 - t.utf8Size = byteLength cs := by
  have hpos := Char.utf8Size_pos t
  refine ⟨t.utf8Size - 1 + byteLength cs, ?_, ?_, ?_⟩
  · rw [byteLength_cons]
    omega
  · omega
  · omega

/-- A text can be cut behind any character. -/
theorem cutBytes?_append (read rest : List Char) :
    cutBytes? (read ++ rest) (byteLength read) = some (read, rest) := by
  induction read with
  | nil => cases rest <;> rfl
  | cons t read ih =>
    obtain ⟨n, hn, hle, hsub⟩ := exists_byteLength_cons t read
    rw [List.cons_append, hn, cutBytes?, if_pos hle, hsub, ih]
    rfl

/-- A text stands for as many characters as it has, if it is measured in bytes. -/
theorem charactersIn?_append (read rest : List Char) :
    charactersIn? (read ++ rest) (byteLength read) = some read.length := by
  induction read with
  | nil =>
    rw [byteLength_nil, charactersIn?]
    rfl
  | cons t read ih =>
    obtain ⟨n, hn, hle, hsub⟩ := exists_byteLength_cons t read
    rw [List.cons_append, hn, charactersIn?, if_pos hle, hsub, ih]
    rfl

/-- A cut splits a text into what is in front of it and what is behind it. -/
theorem eq_append_of_cutBytes? {cs read rest : List Char} {n : ℕ}
    (h : cutBytes? cs n = some (read, rest)) : cs = read ++ rest := by
  induction cs generalizing n read with
  | nil =>
    rw [cutBytes?] at h
    cases h
    rfl
  | cons c cs ih =>
    cases n with
    | zero =>
      rw [cutBytes?.eq_2 _ (by simp)] at h
      cases h
      rfl
    | succ n =>
      rw [cutBytes?] at h
      split at h
      · obtain ⟨⟨read', rest'⟩, hcut, heq⟩ := Option.map_eq_some_iff.mp h
        cases heq
        rw [List.cons_append, ← ih hcut]
      · exact absurd h (by simp)

/-- Passing a run of characters at once is passing them one by one. -/
theorem TextReader.after_passing {c : TextReader} {read rest : List Char}
    (h : c.rest = read ++ rest) : Cursor.After c (c.passing read rest) := by
  induction read generalizing c with
  | nil =>
    have hself : c.passing [] rest = c := by
      rw [TextReader.passing, ← show c.rest = rest from h]
      rfl
    rw [hself]
    exact Cursor.After.refl c
  | cons t read ih =>
    have hnext : c.next =
        { c with
          rest := read ++ rest
          position := c.position + t.utf8Size
          location := c.location.advance t } := by
      rw [TextReader.next, h]
      rfl
    have hpass : c.passing (t :: read) rest = c.next.passing read rest := by
      rw [hnext]
      simp [TextReader.passing, Nat.add_assoc]
    rw [hpass]
    refine (Cursor.After.refl c).next.trans (ih ?_)
    change c.next.rest = read ++ rest
    rw [hnext]

instance : TextCursor.Lawful TextReader where
  after_of_advanceBytes {c d n} h := by
    obtain ⟨⟨read, rest⟩, hcut, rfl⟩ := Option.map_eq_some_iff.mp h
    exact TextReader.after_passing (eq_append_of_cutBytes? hcut)
  isSome_advanceBytes {c read rest} h := by
    change ((cutBytes? c.rest (byteLength read)).map _).isSome
    rw [show c.rest = read ++ rest from h, cutBytes?_append]
    rfl

instance : TextCursor.Lawful PlainReader where
  after_of_advanceBytes {c d n} h := by
    obtain ⟨k, -, rfl⟩ := Option.map_eq_some_iff.mp h
    exact Cursor.after_stepUpTo _ k c
  isSome_advanceBytes {c read rest} h := by
    change ((charactersIn? (TextCursor.rest c) (byteLength read)).map _).isSome
    rw [h, charactersIn?_append]
    rfl

/-! ## Primitive parsers -/

/-- Primitive parsers that only move forward and never end the whole parse. -/
class Primitive.Lawful (π : Type → Type) (C : Type) {T : outParam Type} [Cursor C T]
    [Primitive.Runs π C] : Prop where
  after_of_success {α : Type} {p : π α} {c d : C} {a : α} :
    Primitive.Runs.parse p c = .ok (.success a d) → Cursor.After c d
  isFailure_of_noSuccess {α : Type} {p : π α} {c : C} {reason : NoSuccess} :
    Primitive.Runs.parse p c = .ok (.noSuccess reason) → reason.isFailure = true

section Primitives

variable {C T : Type}

/-- A test on one token moves ahead. -/
theorem after_of_satisfy [Cursor C T] {expected : String} {accepts : T → Bool} {c d : C} {t : T}
    (h : Recognizer.satisfy (m := Except Halt) expected accepts c = .ok (.success t d)) :
    Cursor.After c d := by
  rw [Recognizer.satisfy] at h
  split at h
  · split at h
    · cases h
      exact (Cursor.After.refl c).next
    · cases h
  · cases h

/-- A test on one token never ends in an error. -/
theorem isFailure_of_satisfy [Cursor C T] {expected : String} {accepts : T → Bool} {c : C}
    {reason : NoSuccess}
    (h : Recognizer.satisfy (m := Except Halt) expected accepts c = .ok (.noSuccess reason)) :
    reason.isFailure = true := by
  rw [Recognizer.satisfy] at h
  split at h
  · split at h
    · cases h
    · cases h
      rfl
  · cases h
    rfl

instance [Cursor C T] : Primitive.Lawful (TokenTest T) C where
  after_of_success {_ p _ _ _} h := by
    cases p
    exact after_of_satisfy h
  isFailure_of_noSuccess {_ p _ _} h := by
    cases p
    exact isFailure_of_satisfy h

variable {α : Type}

/-- A scanner moves ahead. -/
theorem after_of_scan [TextCursor C] [TextCursor.Lawful C] {s : Scanner α} {c d : C} {a : α}
    (h : Recognizer.scan (m := Except Halt) s c = .ok (.success a d)) : Cursor.After c d := by
  rw [Recognizer.scan] at h
  split at h
  · cases h
  · split at h
    · rename_i hmove
      cases h
      exact TextCursor.Lawful.after_of_advanceBytes hmove
    · cases h

/-- A scanner never ends in an error. -/
theorem isFailure_of_scan [TextCursor C] {s : Scanner α} {c : C} {reason : NoSuccess}
    (h : Recognizer.scan (m := Except Halt) s c = .ok (.noSuccess reason)) :
    reason.isFailure = true := by
  rw [Recognizer.scan] at h
  split at h
  · cases h
    rfl
  · split at h <;> cases h

instance [TextCursor C] [TextCursor.Lawful C] : Primitive.Lawful TextPrimitive C where
  after_of_success {_ p c _ _} h := by
    rcases p with test | s
    · exact Primitive.Lawful.after_of_success (p := test) (c := c) h
    · exact after_of_scan h
  isFailure_of_noSuccess {_ p c _} h := by
    rcases p with test | s
    · exact Primitive.Lawful.isFailure_of_noSuccess (p := test) (c := c) h
    · exact isFailure_of_scan h

end Primitives

end Parsing
