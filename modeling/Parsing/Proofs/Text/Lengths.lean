import Parsing.Proofs.Text.Identifiers
import Parsing.Proofs.Text.Offsets

/-!
# Lengths of what is read

The scanners for numbers, identifiers and strings read a number of bytes that is not zero and after
which a character ends, and no cut on the way to it is anywhere else (`ScansBy`). So the parser of
such a scanner never stops, and where it succeeds it has moved on (`Parser.run_scan_moves`).
-/

namespace Parsing

namespace Text

/-- The scanners for numbers, identifiers and strings, and how they scan by offsets. -/
inductive ScansBy : {α : Type} → Scanner α → (List Char → Except Halt (Option (α × ℕ))) → Prop where
  | float : ScansBy float sliceFloat
  | decimal : ScansBy decimal (sliceNumber 10)
  | octal : ScansBy octal (sliceNumber 8)
  | hexadecimal : ScansBy hexadecimal (sliceNumber 16)
  | cInteger : ScansBy cInteger sliceCInteger
  | identifier : ScansBy identifier sliceIdentifier
  | javaIdentifier : ScansBy javaIdentifier sliceJavaIdentifier
  | kotlinIdentifier : ScansBy kotlinIdentifier sliceKotlinIdentifier
  | jsonString : ScansBy jsonString sliceString

/-! ## Lengths are not zero -/

section

variable {text : List Char} {a n : ℕ} {v : String}

theorem byteLength_pos_iff : 0 < byteLength text ↔ text ≠ [] :=
  Nat.pos_iff_ne_zero.trans (not_congr byteLength_eq_zero_iff)

theorem pos_of_readNumber {radix : ℕ} (h : readNumber radix text = some (a, n)) : 0 < n := by
  unfold readNumber at h
  simp only at h
  split at h
  · cases h
  · rename_i hne
    obtain ⟨b, -, heq⟩ := Option.map_eq_some_iff.mp h
    cases heq
    exact byteLength_pos_iff.mpr fun hempty => hne (List.isEmpty_iff.mpr hempty)

theorem pos_of_readPrefixedHexadecimal (h : readPrefixedHexadecimal text = some (a, n)) :
    0 < n := by
  unfold readPrefixedHexadecimal at h
  split at h
  · obtain ⟨read, -, heq⟩ := Option.map_eq_some_iff.mp h
    cases heq
    exact Nat.succ_pos _
  · obtain ⟨read, -, heq⟩ := Option.map_eq_some_iff.mp h
    cases heq
    exact Nat.succ_pos _
  · cases h

theorem pos_of_readCInteger (h : readCInteger text = some (a, n)) : 0 < n := by
  unfold readCInteger at h
  split at h
  · cases h
    exact pos_of_readPrefixedHexadecimal ‹_›
  · split at h
    · obtain ⟨value, -, heq⟩ := Option.map_eq_some_iff.mp h
      cases heq
      exact Nat.succ_pos _
    · exact pos_of_readNumber h

/-- A numeral is not empty. -/
theorem Numeral.ne_nil_of_mem (h : text ∈ language) : text ≠ [] := by
  rintro rfl
  obtain ⟨s, hs, e, he, ⟨whole, hwhole, fraction, hfraction, heq⟩ | ⟨whole, hwhole, heq⟩⟩ :=
    mem_language.mp h
  · simp at heq
  · simp [(mem_digits.mp hwhole).1] at heq

theorem LongestOf.ne_nil {kind : Char → Prop} {w : List Char} (h : LongestOf (words kind) w text) :
    w ≠ [] := by
  obtain ⟨c, more, rfl, -⟩ := mem_words.mp h.mem
  exact List.cons_ne_nil c more

theorem IsTicked.ne_nil {w : List Char} (h : IsTicked w text) : w ≠ [] := by
  obtain ⟨name, -, rfl, -⟩ := h
  exact List.cons_ne_nil tick _

theorem IsQuoted.ne_nil {w value : List Char} (h : IsQuoted w value) : w ≠ [] := by
  obtain ⟨items, rfl, -⟩ := h
  exact List.cons_ne_nil '"' _

end

namespace ScansBy

variable {α : Type} {s : Scanner α} {slices : List Char → Except Halt (Option (α × ℕ))}

/-- By offsets a scan comes to what the scanner reads, so that it stops at no cut. -/
theorem slices_eq (h : ScansBy s slices) (text : List Char) : slices text = .ok (s.scan text) := by
  cases h with
  | float => exact sliceFloat_eq text
  | decimal => exact sliceNumber_eq 10 text
  | octal => exact sliceNumber_eq 8 text
  | hexadecimal => exact sliceNumber_eq 16 text
  | cInteger => exact sliceCInteger_eq text
  | identifier => exact sliceWord_eq _ _ text
  | javaIdentifier => exact sliceWord_eq _ _ text
  | kotlinIdentifier => exact sliceKotlinIdentifier_eq text
  | jsonString => exact sliceString_eq text

theorem whole (h : ScansBy s slices) : s.Whole := by
  cases h <;> infer_instance

theorem length_pos (h : ScansBy s slices) {text : List Char} {a : α} {n : ℕ}
    (hscan : s.scan text = some (a, n)) : 0 < n := by
  cases h with
  | float =>
    obtain ⟨numeral, hread, heq⟩ := Option.map_eq_some_iff.mp hscan
    cases heq
    exact byteLength_pos_iff.mpr (Numeral.ne_nil_of_mem (Numeral.mem_of_read hread))
  | decimal => exact pos_of_readNumber hscan
  | octal => exact pos_of_readNumber hscan
  | hexadecimal => exact pos_of_readNumber hscan
  | cInteger => exact pos_of_readCInteger hscan
  | identifier =>
    obtain ⟨hlongest, rfl⟩ := scan_identifier_eq_some_iff.mp hscan
    exact byteLength_pos_iff.mpr hlongest.ne_nil
  | javaIdentifier =>
    obtain ⟨hlongest, rfl⟩ := readJavaIdentifier_eq_some_iff.mp hscan
    exact byteLength_pos_iff.mpr hlongest.ne_nil
  | kotlinIdentifier =>
    obtain ⟨hword, rfl⟩ := readKotlinIdentifier_eq_some_iff.mp hscan
    exact byteLength_pos_iff.mpr (hword.elim LongestOf.ne_nil IsTicked.ne_nil)
  | jsonString =>
    obtain ⟨w, hw, -, rfl⟩ := readQuoted_eq_some_iff.mp hscan
    exact byteLength_pos_iff.mpr hw.ne_nil

end ScansBy

end Text

/-- Bytes of whole characters are no more than the text has. -/
theorem WholeBytes.le_byteLength {text : List Char} {n : ℕ} (h : WholeBytes text n) :
    n ≤ byteLength text := by
  obtain ⟨read, ⟨rest, rfl⟩, rfl⟩ := h
  rw [byteLength_append]
  exact Nat.le_add_right _ _

/-! ## The parsers -/

section

open Text

variable {C ρ : Type} [TextCursor C] [Cursor.Lawful C] [Cursor.Listed C] [TextCursor.Exact C]

/-- Past some characters the position is greater. -/
theorem TextCursor.position_lt_position_iterate_next {c : C} {read rest : List Char}
    (hread : read ≠ []) (hrest : TextCursor.rest c = read ++ rest) :
    Cursor.position c < Cursor.position (Cursor.next^[read.length] c) := by
  refine Cursor.position_iterate_next_lt (List.length_pos_iff.mpr hread) ?_
  rw [← TextCursor.length_rest, hrest, List.length_append]
  exact Nat.le_add_right _ _

/-- The scanners for numbers, identifiers and strings
* come to what they read by offsets, of which none is behind the end of a text or in a character;
* read some bytes of a text, at the end of which a character ends;
* give parsers that move the cursor on by these bytes, and fail where nothing is read.

Those for identifiers read the longest word of their language in front of the text, and one of them
all from a backtick to the next one; this is their value, and they have read no more. -/
theorem Parser.run_scan_moves (env : Environment TextPrimitive ρ) (fuel : ℕ)
    (ctx : Context TextPrimitive ρ) (c : C) (t : Session C ρ) :
    (∀ {α : Type} {s : Scanner α} {slices : List Char → Except Halt (Option (α × ℕ))},
      ScansBy s slices →
        (∀ text, slices text = .ok (s.scan text)) ∧
        (∀ text a n, s.scan text = some (a, n) →
          0 < n ∧ n ≤ byteLength text ∧ WholeBytes text n) ∧
        (∀ a n, s.scan (TextCursor.rest c) = some (a, n) →
          ∃ d, TextCursor.advanceBytes c n = some d ∧ Cursor.position c < Cursor.position d ∧
            (scan s).run env (fuel + 1) ctx c t = (.ok (.success a d), t)) ∧
        (s.scan (TextCursor.rest c) = none →
          (scan s).run env (fuel + 1) ctx c t =
            (.ok (.noSuccess (.failure s.expected (Cursor.location c))), t))) ∧
    ∀ text v n,
      (identifier.scan text = some (v, n) ↔
        LongestOf identifiers v.toList text ∧ byteLength v.toList = n) ∧
      (javaIdentifier.scan text = some (v, n) ↔
        LongestOf javaIdentifiers v.toList text ∧ byteLength v.toList = n) ∧
      (kotlinIdentifier.scan text = some (v, n) ↔
        (LongestOf javaIdentifiers v.toList text ∨ IsTicked v.toList text) ∧
          byteLength v.toList = n) := by
  refine ⟨fun {α s slices} h => ⟨h.slices_eq, fun text a n hscan => ?_, fun a n hscan => ?_,
    fun hnone => ?_⟩, fun text v n => ⟨scan_identifier_eq_some_iff, readJavaIdentifier_eq_some_iff,
      readKotlinIdentifier_eq_some_iff⟩⟩
  · have hwhole := h.whole.wholeBytes hscan
    exact ⟨h.length_pos hscan, hwhole.le_byteLength, hwhole⟩
  · have hwhole := h.whole.wholeBytes hscan
    obtain ⟨read, ⟨rest, hrest⟩, rfl⟩ := hwhole
    have hmove := TextCursor.Exact.advanceBytes_append hrest.symm
    have hread := byteLength_pos_iff.mp (h.length_pos hscan)
    have hlt := TextCursor.position_lt_position_iterate_next hread hrest.symm
    exact ⟨_, hmove, hlt, run_scan (Recognizer.scan_of_some hrest.symm hscan) env fuel ctx t⟩
  · exact run_scan (Recognizer.scan_of_none hnone) env fuel ctx t

end

/-! ### A name between backticks -/

namespace Ticked

/-- Characters of one, two and three bytes between backticks, and a third backtick. -/
def text : List Char :=
  "`aé☃`b`".toList

def cursor : TextReader :=
  .ofChars text (.offset 0) ⟨0⟩

end Ticked

open Ticked in
/-- Five characters are read, which take eight bytes. -/
theorem Parser.run_scan_moves_ticked :
    Text.sliceKotlinIdentifier text = .ok (some ("`aé☃`", 8)) ∧
    (0 < 8 ∧ 8 ≤ byteLength text ∧ WholeBytes text 8) ∧
    (∃ d : TextReader, d.position = 8 ∧ cursor.position < d.position ∧
      (scan Text.kotlinIdentifier).run Hexadecimal.names 1 {} cursor {} =
        (.ok (.success "`aé☃`" d), {})) ∧
    Text.IsTicked "`aé☃`".toList text := by
  have hscan : Text.kotlinIdentifier.scan text = some ("`aé☃`", 8) := rfl
  obtain ⟨hscans, hwords⟩ := run_scan_moves Hexadecimal.names 0 {} cursor {}
  obtain ⟨hslices, hlength, hmoves, -⟩ := hscans .kotlinIdentifier
  obtain ⟨d, hd, hlt, hrun⟩ := hmoves _ _ hscan
  obtain ⟨-, -, hkotlin⟩ := hwords text "`aé☃`" 8
  refine ⟨hscan ▸ hslices text, hlength text _ _ hscan, ⟨d, ?_, hlt, hrun⟩, ?_⟩
  · cases hd
    rfl
  · exact (hkotlin.mp hscan).1.resolve_left fun h => Text.head?_ne_tick_of_longestOf h rfl

end Parsing
