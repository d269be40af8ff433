import Mathlib.Data.List.DropRight
import Parsing.Proofs.Cursor.Steps

/-!
# Where moves lead

However a cursor is moved over a list of tokens, it stands behind the first `k` of them, where `k`
adds up what the moves pass and is not more than there is (`Move.place`, `TextMove.Leads`). All that
it shows is determined by `k` (`Cursor.Stands`): the next token and those that are left, the
position, and the location, which counts the lines among the tokens passed and the tokens since the
last of them. It does so in words (`Location.counted`), and so in numbers as long as no count passes
the greatest word (`Location.Fits`, `Location.Behind`).
-/

namespace Parsing

open Cursor

/-! ## Counting locations -/

namespace Location

variable {T : Type} [Newline T]

/-- The location behind tokens, counted in words. -/
def counted (tokens : List T) : Location → Location
  | .offset count => .offset (count + UInt64.ofNat tokens.length)
  | .lineColumn place => .lineColumn
    { line := place.line + UInt64.ofNat (tokens.countP isNewline)
      column := (if tokens.any isNewline then 0 else place.column) +
        UInt64.ofNat (tokens.rtakeWhile fun t => !isNewline t).length }

/-- The words of a location follow it token by token. -/
theorem counted_concat (tokens : List T) (t : T) (l : Location) :
    l.counted (tokens ++ [t]) = (l.counted tokens).advance t := by
  cases l with
  | offset count =>
    rw [counted, counted, advance, List.length_append, List.length_singleton, UInt64.ofNat_add,
      UInt64.add_assoc]
    rfl
  | lineColumn place =>
    rw [counted, counted, advance, LineColumn.advance, List.countP_append, List.rtakeWhile_concat,
      List.any_append]
    by_cases ht : isNewline t = true
    · simp [ht, UInt64.ofNat_add, UInt64.add_assoc]
    · simp [ht, UInt64.ofNat_add, UInt64.add_assoc]

/-- Moving over tokens one by one counts them. -/
theorem advanceBy_eq_counted (tokens : List T) (l : Location) :
    l.advanceBy tokens = l.counted tokens := by
  induction tokens using List.reverseRecOn with
  | nil => cases l <;> simp [counted]
  | append_singleton tokens t ih =>
    rw [advanceBy_append, counted_concat, ih, advanceBy_cons, advanceBy_nil]

/-- Whether no count passes the greatest word on the way over tokens. -/
def Fits (tokens : List T) : Location → Prop
  | .offset count => count.toNat + tokens.length < UInt64.size
  | .lineColumn place => place.line.toNat + tokens.countP isNewline < UInt64.size ∧
    place.column.toNat + tokens.length < UInt64.size

/-- Whether a location is the one behind tokens, counted in numbers: the lines among them, and the
tokens since the last of these. -/
inductive Behind (tokens : List T) : Location → Location → Prop where
  | offset {count count' : UInt64} (h : count'.toNat = count.toNat + tokens.length) :
    Behind tokens (.offset count) (.offset count')
  | lineColumn {place place' : LineColumn}
    (hline : place'.line.toNat = place.line.toNat + tokens.countP isNewline)
    (hcolumn : place'.column.toNat = (if tokens.any isNewline then 0 else place.column.toNat) +
      (tokens.rtakeWhile fun t => !isNewline t).length) :
    Behind tokens (.lineColumn place) (.lineColumn place')

/-- A count that does not pass the greatest word is a sum. -/
theorem toNat_add_ofNat {count : UInt64} {n : ℕ} (h : count.toNat + n < UInt64.size) :
    (count + UInt64.ofNat n).toNat = count.toNat + n := by
  rw [UInt64.toNat_add, UInt64.toNat_ofNat_of_lt' (by omega)]
  exact Nat.mod_eq_of_lt h

/-- As long as no count passes the greatest word, locations are counted in numbers. -/
theorem behind_counted {tokens : List T} {l : Location} (h : l.Fits tokens) :
    Behind tokens l (l.counted tokens) := by
  cases l with
  | offset count => exact .offset (toNat_add_ofNat h)
  | lineColumn place =>
    obtain ⟨hline, hcolumn⟩ := h
    refine .lineColumn (toNat_add_ofNat hline) ?_
    have hlength := (List.rtakeWhile_suffix (fun t => !isNewline t) tokens).length_le
    dsimp only
    split
    · refine toNat_add_ofNat ?_
      rw [UInt64.toNat_zero]
      omega
    · exact toNat_add_ofNat (by omega)

end Location

/-! ## What a cursor shows -/

/-- Whether a cursor shows what there is to be seen behind the first `k` tokens of a list, where
`rest` gives the tokens that are left and `size` is how much of the input tokens take. -/
structure Cursor.Stands {C T : Type} [Cursor C T] [Newline T] (rest : C → List T)
    (size : List T → ℕ) (tokens : List T) (start : Location) (input : InputId) (k : ℕ) (c : C) :
    Prop where
  le_length : k ≤ tokens.length
  current_eq : Cursor.current c = tokens[k]?
  isEmpty_iff : Cursor.isEmpty c = true ↔ k = tokens.length
  rest_eq : rest c = tokens.drop k
  position_eq : Cursor.position c = size (tokens.take k)
  location_eq : Cursor.location c = start.counted (tokens.take k)
  behind_of_fits : start.Fits (tokens.take k) →
    Location.Behind (tokens.take k) start (Cursor.location c)
  input_eq : Cursor.input c = input

section

variable {C T : Type} [Cursor C T] [Cursor.Lawful C] [Newline T] [Cursor.Listed C] {c : C}
  {k : ℕ} {size : List T → ℕ}

/-- Steps from the start of an input lead behind as many tokens. -/
theorem Cursor.stands_iterate_next (hsize : ∀ n : ℕ, Cursor.position (Cursor.next^[n] c) =
    size ((Listed.tokens c).take n)) (hk : k ≤ (Listed.tokens c).length) :
    Stands Listed.tokens size (Listed.tokens c) (Cursor.location c) (Cursor.input c) k
      (Cursor.next^[k] c) where
  le_length := hk
  current_eq := by rw [Listed.current_eq, tokens_iterate_next, List.head?_drop]
  isEmpty_iff := by
    rw [Listed.isEmpty_eq, tokens_iterate_next, List.isEmpty_iff, List.drop_eq_nil_iff]
    omega
  rest_eq := tokens_iterate_next c k
  position_eq := hsize k
  location_eq := by rw [location_iterate_next, Location.advanceBy_eq_counted]
  behind_of_fits hfits := by
    rw [location_iterate_next, Location.advanceBy_eq_counted]
    exact Location.behind_counted hfits
  input_eq := After.input_eq ⟨k, rfl⟩

end

/-! ## Moves -/

/-- A move by tokens. -/
inductive Move where
  | next
  | skip (n : ℕ)

namespace Move

/-- Makes the move. -/
def make {C T : Type} [Cursor C T] (c : C) : Move → C
  | .next => Cursor.next c
  | .skip n => Cursor.skip c n

/-- The number of tokens that the move leads behind from `k` tokens out of `length`. -/
def place (length k : ℕ) : Move → ℕ
  | .next => min (k + 1) length
  | .skip n => min (k + n) length

/-- A move leads to no place behind the end. -/
theorem place_le (length k : ℕ) (m : Move) : m.place length k ≤ length := by
  cases m <;> exact Nat.min_le_right _ _

variable {C T : Type} [Cursor C T] [Cursor.Lawful C] [Cursor.Stepwise C]

/-- From the place behind `k` tokens, a move leads to the place that is counted for it. -/
theorem make_iterate_next (c : C) (k : ℕ) (m : Move) : make (Cursor.next^[k] c) m =
    Cursor.next^[m.place (Lawful.remaining c) k] c := by
  cases m with
  | next => exact (Function.iterate_succ_apply' _ _ _).symm.trans (iterate_next_min c (k + 1))
  | skip n =>
    rw [make, Stepwise.skip_eq_iterate, ← Function.iterate_add_apply, Nat.add_comm]
    exact iterate_next_min c (k + n)

/-- A sequence of moves leads to the place that is counted for it. -/
theorem foldl_make (c : C) (k : ℕ) (moves : List Move) :
    moves.foldl make (Cursor.next^[k] c) =
      Cursor.next^[moves.foldl (place (Lawful.remaining c)) k] c := by
  induction moves generalizing k with
  | nil => rfl
  | cons m moves ih => rw [List.foldl_cons, make_iterate_next, ih, List.foldl_cons]

/-- Whatever is moved, the place stays within the input. -/
theorem foldl_place_le {length k : ℕ} (hk : k ≤ length) (moves : List Move) :
    moves.foldl (place length) k ≤ length := by
  induction moves generalizing k with
  | nil => exact hk
  | cons m moves ih => exact ih (m.place_le length k)

end Move

/-- A move in a text, by characters or by bytes. -/
inductive TextMove where
  | move (m : Move)
  | bytes (n : ℕ)

namespace TextMove

/-- Makes the move. -/
def make? {C : Type} [TextCursor C] (c : C) : TextMove → Option C
  | .move m => some (m.make c)
  | .bytes n => TextCursor.advanceBytes c n

/-- Whether moves lead from behind one number of characters of a text to behind another one. Moves
by bytes are to end behind a character. -/
inductive Leads (text : List Char) : ℕ → List TextMove → ℕ → Prop where
  | nil (k : ℕ) : Leads text k [] k
  | move {k l : ℕ} {moves : List TextMove} (m : Move)
    (h : Leads text (m.place text.length k) moves l) : Leads text k (.move m :: moves) l
  | bytes {k l : ℕ} {moves : List TextMove} {read rest : List Char}
    (hread : text.drop k = read ++ rest) (h : Leads text (k + read.length) moves l) :
    Leads text k (.bytes (byteLength read) :: moves) l

variable {C : Type} [TextCursor C] [Cursor.Lawful C] [Cursor.Listed C] [Cursor.Stepwise C]
  [TextCursor.Exact C] {c : C} {k l : ℕ}

/-- Moves in a text lead to a place, which is not behind its end. -/
theorem Leads.foldlM_make? {moves : List TextMove} (h : Leads (Listed.tokens c) k moves l)
    (hk : k ≤ (Listed.tokens c).length) :
    moves.foldlM make? (Cursor.next^[k] c) = some (Cursor.next^[l] c) ∧
      l ≤ (Listed.tokens c).length := by
  induction h with
  | nil k => exact ⟨rfl, hk⟩
  | @move k l moves m h ih =>
    obtain ⟨hfold, hl⟩ := ih (m.place_le _ k)
    refine ⟨?_, hl⟩
    rw [List.foldlM_cons, make?, Move.make_iterate_next, ← Listed.length_tokens]
    exact hfold
  | @bytes k l moves read rest hread h ih =>
    have hlength := congrArg List.length hread
    rw [List.length_drop, List.length_append] at hlength
    obtain ⟨hfold, hl⟩ := ih (by omega)
    have hrest : TextCursor.rest (Cursor.next^[k] c) = read ++ rest := by
      rw [TextCursor.Exact.rest_eq, tokens_iterate_next, hread]
    refine ⟨?_, hl⟩
    rw [List.foldlM_cons, make?, TextCursor.Exact.advanceBytes_append hrest,
      ← Function.iterate_add_apply, Nat.add_comm]
    exact hfold

end TextMove

/-! ## Texts and lists of tokens -/

namespace Cursor

/-- A text reader stands behind as many characters as it has passed. -/
theorem stands_text {text : List Char} {l : Location} {i : InputId} {k : ℕ}
    (hk : k ≤ text.length) : Stands TextReader.rest byteLength text l i k
      (Cursor.next^[k] (TextReader.ofChars text l i)) :=
  stands_iterate_next (c := TextReader.ofChars text l i)
    (fun n => (TextReader.position_iterate_next _ n).trans (Nat.zero_add _)) hk

/-- A token reader stands behind as many tokens as it has passed. -/
theorem stands_tokens {T : Type} [Newline T] {tokens : List T} {l : Location} {i : InputId} {k : ℕ}
    (hk : k ≤ tokens.length) : Stands TokenReader.rest List.length tokens l i k
      (Cursor.next^[k] (TokenReader.ofList tokens l i)) :=
  stands_iterate_next (c := TokenReader.ofList tokens l i)
    (fun n => (TokenReader.position_iterate_next _ n).trans (Nat.zero_add _)) hk

/-- Of two places in an input, the one behind fewer tokens has the smaller position. -/
theorem Stands.position_lt {C T : Type} [Cursor C T] [Cursor.Lawful C] [Newline T]
    {rest : C → List T} {size : List T → ℕ} {tokens : List T} {l : Location} {i : InputId}
    {c d : C} {j k : ℕ} (hc : Stands rest size tokens l i j c)
    (hd : Stands rest size tokens l i k d) (hjk : j < k) (start : C)
    (hstart : ∀ n ≤ tokens.length, Stands rest size tokens l i n (Cursor.next^[n] start))
    (hlength : Lawful.remaining start = tokens.length) :
    Cursor.position c < Cursor.position d := by
  rw [hc.position_eq, hd.position_eq, ← (hstart j hc.le_length).position_eq,
    ← (hstart k hd.le_length).position_eq]
  exact position_iterate_next_lt hjk (hlength ▸ hd.le_length)

/-- Any moves over a text, those by bytes to the end of a character, and any moves over a list of
tokens lead to a cursor that stands behind as many tokens as the moves pass, and the more these are
the greater is its position. Wherever the start is, the location counts the tokens in words, and in
numbers if no count passes the greatest word on the way. Moving by bytes is skipping the characters
that they make up, and skipping twice is skipping the sum. -/
theorem stands_of_moves :
    (∀ (text : List Char) (l : Location) (i : InputId),
      (∀ moves k, TextMove.Leads text 0 moves k →
        ∃ c, moves.foldlM TextMove.make? (TextReader.ofChars text l i) = some c ∧
          Stands TextReader.rest byteLength text l i k c) ∧
      ∀ j k c d, Stands TextReader.rest byteLength text l i j c →
        Stands TextReader.rest byteLength text l i k d → j < k →
        Cursor.position c < Cursor.position d) ∧
    (∀ (T : Type) [Newline T] (tokens : List T) (l : Location) (i : InputId),
      (∀ moves : List Move, Stands TokenReader.rest List.length tokens l i
        (moves.foldl (Move.place tokens.length) 0)
        (moves.foldl Move.make (TokenReader.ofList tokens l i))) ∧
      ∀ j k c d, Stands TokenReader.rest List.length tokens l i j c →
        Stands TokenReader.rest List.length tokens l i k d → j < k →
        Cursor.position c < Cursor.position d) ∧
    (∀ (c : TextReader) (n : ℕ), n ≤ byteLength c.rest →
      TextCursor.advanceBytes c n = (charactersIn? c.rest n).map (Cursor.skip c)) ∧
    (∀ (c : TextReader) (n m : ℕ), Cursor.skip (Cursor.skip c n) m = Cursor.skip c (n + m)) ∧
    ∀ (T : Type) [Newline T] (c : TokenReader T) (n m : ℕ),
      Cursor.skip (Cursor.skip c n) m = Cursor.skip c (n + m) := by
  refine ⟨fun text l i => ⟨fun moves k h => ?_, fun j k c d hc hd hjk => ?_⟩,
    fun T _ tokens l i => ⟨fun moves => ?_, fun j k c d hc hd hjk => ?_⟩,
    fun c n hn => c.advanceBytes_eq_map hn, skip_skip, fun T _ => skip_skip⟩
  · -- moves by bytes that end between characters are skips, so that all moves lead to a place by
    -- number
    obtain ⟨hfold, hk⟩ := h.foldlM_make? (c := TextReader.ofChars text l i) (Nat.zero_le _)
    exact ⟨_, hfold, stands_text hk⟩
  · exact hc.position_lt hd hjk (TextReader.ofChars text l i) (fun _ => stands_text) rfl
  · have hfold := Move.foldl_make (TokenReader.ofList tokens l i) 0 moves
    rw [Function.iterate_zero_apply] at hfold
    rw [hfold]
    exact stands_tokens (Move.foldl_place_le (Nat.zero_le _) moves)
  · exact hc.position_lt hd hjk (TokenReader.ofList tokens l i) (fun _ => stands_tokens) rfl

/-- Over a character of two bytes, the end of a line, and a letter behind which the text ends. From
the greatest count of tokens on, the count goes on at zero. -/
theorem stands_of_moves_twoLines :
    TextMove.Leads ['é', '\n', 'x'] 0 [.bytes 2, .move .next, .move (.skip 7)] 3 ∧
    (∃ c, [.bytes 2, .move .next, .move (.skip 7)].foldlM TextMove.make?
        (TextReader.ofChars ['é', '\n', 'x'] (.lineColumn ⟨2, 5⟩) ⟨0⟩) = some c ∧
      Stands TextReader.rest byteLength ['é', '\n', 'x'] (.lineColumn ⟨2, 5⟩) ⟨0⟩ 3 c ∧
      Cursor.position c = 4 ∧ Cursor.location c = .lineColumn ⟨3, 1⟩ ∧
      Location.Behind ['é', '\n', 'x'] (.lineColumn ⟨2, 5⟩) (Cursor.location c)) ∧
    ∃ c, [.bytes 2, .move .next, .move (.skip 7)].foldlM TextMove.make?
        (TextReader.ofChars ['é', '\n', 'x'] (.offset 18446744073709551615) ⟨0⟩) = some c ∧
      Cursor.location c = .offset 2 := by
  have hleads : TextMove.Leads ['é', '\n', 'x'] 0 [.bytes 2, .move .next, .move (.skip 7)] 3 :=
    @TextMove.Leads.bytes _ 0 3 _ ['é'] ['\n', 'x'] rfl (.move .next (.move (.skip 7) (.nil 3)))
  obtain ⟨c, hfold, hstands⟩ :=
    (stands_of_moves.1 ['é', '\n', 'x'] (.lineColumn ⟨2, 5⟩) ⟨0⟩).1 _ 3 hleads
  obtain ⟨d, hfold', hstands'⟩ :=
    (stands_of_moves.1 ['é', '\n', 'x'] (.offset 18446744073709551615) ⟨0⟩).1 _ 3 hleads
  refine ⟨hleads, ⟨c, hfold, hstands, hstands.position_eq, hstands.location_eq, ?_⟩,
    ⟨d, hfold', hstands'.location_eq⟩⟩
  exact hstands.behind_of_fits ⟨by decide, by decide⟩

end Cursor

end Parsing
