import Mathlib.Data.List.Infix
import Parsing.Proofs.Text.Lexeme

/-!
# Reading up to a delimiter

A text is read up to a delimiter character by character, for as long as the delimiter does not come
next (`Parser.upTo`). That stops at the first place where the delimiter stands, also where only a
part of it stood before, and at the end of the text if it stands nowhere
(`Parser.exists_settles_upTo`). It is said of what is read and of what is left in terms of the text
alone (`Text.UpToFirst`), which determines both (`Text.UpToFirst.unique`).
-/

namespace Parsing

open Cursor

namespace Text

variable {delimiter text read rest : List Char}

/-- Whether what is left of a text begins at the first place where a delimiter stands in the text,
or at the end if there is no such place. -/
structure UpToFirst (delimiter text read rest : List Char) : Prop where
  text_eq : text = read ++ rest
  not_prefix_drop {k : ℕ} : k < read.length → ¬ delimiter <+: text.drop k
  stops : delimiter <+: rest ∨ rest = [] ∧ ¬ delimiter <:+: text

namespace UpToFirst

/-- Where the delimiter stands, nothing is in front of it. -/
theorem here (h : delimiter <+: text) : UpToFirst delimiter text [] text where
  text_eq := rfl
  not_prefix_drop hk := absurd hk (Nat.not_lt_zero _)
  stops := .inl h

theorem nil (h : ¬ delimiter <+: []) : UpToFirst delimiter [] [] [] where
  text_eq := rfl
  not_prefix_drop hk := absurd hk (Nat.not_lt_zero _)
  stops := .inr ⟨rfl, fun hinfix => h (List.infix_nil.mp hinfix ▸ List.prefix_rfl)⟩

/-- Where it does not stand, one more character is in front of it. -/
theorem cons {t : Char} (ht : ¬ delimiter <+: t :: text) (h : UpToFirst delimiter text read rest) :
    UpToFirst delimiter (t :: text) (t :: read) rest where
  text_eq := congrArg (List.cons t) h.text_eq
  not_prefix_drop {k} hk := by
    cases k with
    | zero => exact ht
    | succ k => exact h.not_prefix_drop (Nat.lt_of_succ_lt_succ hk)
  stops := by
    refine h.stops.imp_right fun hend => ⟨hend.1, fun hinfix => ?_⟩
    rcases List.infix_cons_iff.mp hinfix with hprefix | hinfix
    · exact ht hprefix
    · exact hend.2 hinfix

theorem tail {t : Char} (h : UpToFirst delimiter text (t :: read) rest) :
    UpToFirst delimiter (read ++ rest) read rest where
  text_eq := rfl
  not_prefix_drop hk := by
    have hnot := h.not_prefix_drop (Nat.succ_lt_succ hk)
    rwa [h.text_eq] at hnot
  stops := by
    refine h.stops.imp_right fun hend => ⟨hend.1, fun hinfix => hend.2 ?_⟩
    rw [h.text_eq]
    exact List.infix_cons hinfix

theorem drop_length (h : UpToFirst delimiter text read rest) : text.drop read.length = rest := by
  rw [h.text_eq, List.drop_left]

/-- There is no place further ahead where it may stop. -/
theorem length_le {read' rest' : List Char} (h : UpToFirst delimiter text read rest)
    (h' : UpToFirst delimiter text read' rest') : read'.length ≤ read.length := by
  rcases h.stops with hprefix | ⟨hend, -⟩
  · by_contra hlt
    refine h'.not_prefix_drop (Nat.lt_of_not_le hlt) ?_
    rw [h.drop_length]
    exact hprefix
  · have hlength := congrArg List.length h.text_eq
    have hlength' := congrArg List.length h'.text_eq
    rw [List.length_append] at hlength hlength'
    rw [hend, List.length_nil] at hlength
    omega

/-- There is one way to read up to the first delimiter. -/
theorem unique {read' rest' : List Char} (h : UpToFirst delimiter text read rest)
    (h' : UpToFirst delimiter text read' rest') : read = read' ∧ rest = rest' :=
  List.append_inj (h.text_eq.symm.trans h'.text_eq)
    (Nat.le_antisymm (h'.length_le h) (h.length_le h'))

end UpToFirst

/-- There is one in every text, if the end counts. -/
theorem exists_upToFirst (delimiter text : List Char) :
    ∃ read rest, UpToFirst delimiter text read rest := by
  induction text with
  | nil =>
    by_cases h : delimiter <+: []
    · exact ⟨[], [], .here h⟩
    · exact ⟨[], [], .nil h⟩
  | cons t text ih =>
    by_cases h : delimiter <+: t :: text
    · exact ⟨[], t :: text, .here h⟩
    · obtain ⟨read, rest, hfirst⟩ := ih
      exact ⟨t :: read, rest, hfirst.cons h⟩

end Text

open Text

namespace Parser

variable {C ρ : Type}

/-- A character at which a delimiter does not begin. -/
def outside (delimiter : String) : Parser TextPrimitive ρ Char :=
  .map Prod.snd (.and (.not (literal delimiter)) anyChar)

/-- The characters in front of a delimiter. -/
def upTo (delimiter : String) : Parser TextPrimitive ρ (List Char) :=
  .many (outside delimiter)

variable [TextCursor C] [Cursor.Lawful C] [Cursor.Listed C] [TextCursor.Exact C]
  {env : Environment TextPrimitive ρ} {delimiter : String} {c : C} {read rest : List Char}

/-- A character that does not begin a delimiter is outside. -/
theorem settles_outside {t : Char} (h : ¬ delimiter.toList <+: TextCursor.rest c)
    (hrest : TextCursor.rest c = t :: rest) :
    (outside delimiter).Settles env c (.success t (Cursor.next c)) :=
  settles_map _ (settles_zip _ (refuses_literal_of_mismatch h).not (settles_anyChar hrest))

/-- There is no such character in front of the delimiter and at the end. -/
theorem refuses_outside (h : UpToFirst delimiter.toList (TextCursor.rest c) [] rest) :
    (outside delimiter).Refuses env c := by
  rcases h.stops with hprefix | ⟨hend, hinfix⟩
  · obtain ⟨more, hmore⟩ := hprefix
    have htext : TextCursor.rest c = delimiter.toList ++ more := h.text_eq.trans hmore.symm
    exact ((refuses_not_of_settles (settles_literal htext)).zip _).map _
  · have hnot : ¬ delimiter.toList <+: TextCursor.rest c := fun hprefix => hinfix hprefix.isInfix
    have htext : TextCursor.rest c = [] := h.text_eq.trans hend
    refine (refuses_zip_of_settles _ (refuses_literal_of_mismatch hnot).not ?_).map _
    exact ⟨_, rfl, settles_anyChar_end htext⟩

/-- A loop over what is outside reads up to the first delimiter. -/
theorem repeats_outside (h : UpToFirst delimiter.toList (TextCursor.rest c) read rest) :
    (outside delimiter).Repeats env c read (Cursor.next^[read.length] c) := by
  induction read generalizing c with
  | nil => exact (refuses_outside h).repeats
  | cons t read ih =>
    have hnot : ¬ delimiter.toList <+: TextCursor.rest c := h.not_prefix_drop (Nat.succ_pos _)
    have hrest : TextCursor.rest (Cursor.next c) = read ++ rest := by
      rw [TextCursor.rest_next, h.text_eq]
      rfl
    have hmoved : Cursor.position (Cursor.next c) ≠ Cursor.position c :=
      Nat.ne_of_gt (TextCursor.position_lt_position_next h.text_eq)
    exact .cons (settles_outside hnot h.text_eq) hmoved (ih (hrest ▸ h.tail))

/-- Reading up to a delimiter always succeeds, with the characters up to the first place where the
delimiter stands, or with all that are left if it stands nowhere, and behind these. -/
theorem exists_settles_upTo (env : Environment TextPrimitive ρ) (delimiter : String) (c : C) :
    ∃ read d, (upTo delimiter).Settles env c (.success read d) ∧
      d = Cursor.next^[read.length] c ∧
      UpToFirst delimiter.toList (TextCursor.rest c) read (TextCursor.rest d) := by
  obtain ⟨read, rest, hfirst⟩ := exists_upToFirst delimiter.toList (TextCursor.rest c)
  refine ⟨read, _, (repeats_outside hfirst).settles_many, rfl, ?_⟩
  rw [TextCursor.rest_iterate_next, hfirst.drop_length]
  exact hfirst

open Exclamations (rules) in
/-- Two letters are read of which the delimiter might have begun with the second, and one in front
of them that takes two bytes. -/
theorem exists_settles_upTo_overlap :
    (upTo "aab").Settles rules (TextReader.ofChars "éaaabx".toList (.lineColumn {}) ⟨0⟩)
      (.success ['é', 'a'] ⟨"éaaabx".toList, "aabx".toList, 3, .lineColumn ⟨1, 2⟩, ⟨0⟩⟩) := by
  obtain ⟨read, d, hsettles, rfl, hfirst⟩ := exists_settles_upTo rules "aab"
    (TextReader.ofChars "éaaabx".toList (.lineColumn {}) ⟨0⟩)
  have hexpected : UpToFirst "aab".toList "éaaabx".toList ['é', 'a'] "aabx".toList :=
    .cons (by decide) (.cons (by decide) (.here (by decide)))
  obtain ⟨rfl, -⟩ := hexpected.unique hfirst
  exact hsettles

end Parser

end Parsing
