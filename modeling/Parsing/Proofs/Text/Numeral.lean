import Mathlib.Computability.Language
import Parsing.Proofs.Text.CInteger

/-!
# The language of decimal numerals

The numerals are the words of `[-+]?[0-9]*\.?[0-9]+([eE][-+]?[0-9]+)?` (`Numeral.language`). A
matcher for this expression goes back where the digits in front of the point took too much, or where
a point or an exponent turns out to have no digits. `Numeral.read` never goes back: it takes at each
place what there is, and that is the longest word of the language in front of the text
(`Numeral.length_le_of_read`). So the parser takes this word, or fails if there is none
(`Parser.run_float`).
-/

namespace Parsing

namespace Text

open scoped Computability

/-- Whether a word is the longest one of a language in front of a text. -/
structure LongestOf (l : Language Char) (w text : List Char) : Prop where
  mem : w ∈ l
  isPrefix : w <+: text
  length_le : ∀ v ∈ l, v <+: text → v.length ≤ w.length

/-- There is one longest word in front of a text at most. -/
theorem LongestOf.unique {l : Language Char} {v w text : List Char} (hv : LongestOf l v text)
    (hw : LongestOf l w text) : v = w := by
  have hlength := Nat.le_antisymm (hw.length_le v hv.mem hv.isPrefix)
    (hv.length_le w hw.mem hw.isPrefix)
  exact (List.prefix_of_prefix_length_le hv.isPrefix hw.isPrefix hlength.le).eq_of_length hlength

namespace Numeral

/-! ## The language -/

/-- The words of one character of a kind. -/
def letters (accepts : Char → Prop) : Language Char :=
  {w | ∃ c, accepts c ∧ w = [c]}

/-- The words of a language, and the empty word. -/
def optional (l : Language Char) : Language Char :=
  l + 1

def signs : Language Char :=
  letters fun c => c = '-' ∨ c = '+'

def digit : Language Char :=
  letters fun c => '0' ≤ c ∧ c ≤ '9'

/-- At least one digit. -/
def digits : Language Char :=
  digit * digit∗

def exponents : Language Char :=
  letters (fun c => c = 'e' ∨ c = 'E') * optional signs * digits

/-- The words of `[-+]?[0-9]*\.?[0-9]+([eE][-+]?[0-9]+)?`. -/
def language : Language Char :=
  optional signs * digit∗ * optional (letters (· = '.')) * digits * optional exponents

/-- Whether a word is the longest one of the language in front of a text. -/
structure Longest (w text : List Char) : Prop where
  mem : w ∈ language
  isPrefix : w <+: text
  length_le : ∀ v ∈ language, v <+: text → v.length ≤ w.length

section

variable {l : Language Char} {accepts : Char → Prop} {w text : List Char}

theorem mem_letters : w ∈ letters accepts ↔ ∃ c, accepts c ∧ w = [c] :=
  Iff.rfl

theorem mem_optional : w ∈ optional l ↔ w ∈ l ∨ w = [] := by
  rw [optional, Language.mem_add, Language.mem_one]

/-- Words of any number of characters of a kind. -/
theorem mem_kstar_letters : w ∈ (letters accepts)∗ ↔ ∀ c ∈ w, accepts c := by
  constructor
  · intro h
    obtain ⟨parts, rfl, hparts⟩ := Language.mem_kstar.mp h
    intro c hc
    obtain ⟨part, hpart, hc⟩ := List.mem_flatten.mp hc
    obtain ⟨d, hd, rfl⟩ := mem_letters.mp (hparts part hpart)
    rw [List.mem_singleton.mp hc]
    exact hd
  · intro h
    refine Language.mem_kstar.mpr ⟨w.map ([·]), ?_, fun part hpart => ?_⟩
    · rw [← List.flatMap_def]
      exact (List.flatMap_singleton' w).symm
    · obtain ⟨d, hd, rfl⟩ := List.mem_map.mp hpart
      exact mem_letters.mpr ⟨d, h d hd, rfl⟩

theorem isDigit_eq_true_iff (c : Char) : c.isDigit = true ↔ '0' ≤ c ∧ c ≤ '9' := by
  rw [Char.isDigit, Bool.and_eq_true, decide_eq_true_eq, decide_eq_true_eq]
  rfl

theorem mem_digit : w ∈ digit ↔ ∃ d : Char, d.isDigit = true ∧ w = [d] :=
  exists_congr fun d => and_congr_left fun _ => (isDigit_eq_true_iff d).symm

theorem mem_kstar_digit : w ∈ digit∗ ↔ ∀ c ∈ w, c.isDigit = true :=
  mem_kstar_letters.trans (forall₂_congr fun c _ => (isDigit_eq_true_iff c).symm)

theorem mem_digits : w ∈ digits ↔ w ≠ [] ∧ ∀ c ∈ w, c.isDigit = true := by
  rw [digits, Language.mem_mul]
  constructor
  · rintro ⟨first, hfirst, more, hmore, rfl⟩
    obtain ⟨d, hd, rfl⟩ := mem_digit.mp hfirst
    refine ⟨List.cons_ne_nil d more, List.forall_mem_cons.mpr ⟨hd, mem_kstar_digit.mp hmore⟩⟩
  · rintro ⟨hne, hall⟩
    obtain ⟨d, more, rfl⟩ := List.exists_cons_of_ne_nil hne
    obtain ⟨hd, hmore⟩ := List.forall_mem_cons.mp hall
    exact ⟨[d], mem_digit.mpr ⟨d, hd, rfl⟩, more, mem_kstar_digit.mpr hmore, rfl⟩

/-- An exponent is a letter, a sign perhaps, and digits. -/
theorem mem_exponents : w ∈ exponents ↔ ∃ e s ds, w = e :: (s ++ ds) ∧
    (e = 'e' ∨ e = 'E') ∧ s ∈ optional signs ∧ ds ∈ digits := by
  simp only [exponents, Language.mem_mul, mem_letters]
  constructor
  · rintro ⟨_, ⟨_, ⟨e, he, rfl⟩, s, hs, rfl⟩, ds, hds, rfl⟩
    exact ⟨e, s, ds, rfl, he, hs, hds⟩
  · rintro ⟨e, s, ds, rfl, he, hs, hds⟩
    exact ⟨_, ⟨[e], ⟨e, he, rfl⟩, s, hs, rfl⟩, ds, hds, rfl⟩

/-- A numeral has a point with digits behind it, or it has digits only. -/
theorem mem_language : w ∈ language ↔ ∃ s ∈ optional signs, ∃ e ∈ optional exponents,
    (∃ whole ∈ digit∗, ∃ fraction ∈ digits, w = s ++ (whole ++ '.' :: (fraction ++ e))) ∨
    ∃ whole ∈ digits, w = s ++ (whole ++ e) := by
  simp only [language, Language.mem_mul]
  constructor
  · rintro ⟨_, ⟨_, ⟨_, ⟨s, hs, whole, hwhole, rfl⟩, point, hpoint, rfl⟩, ds, hds, rfl⟩, e, he, rfl⟩
    refine ⟨s, hs, e, he, ?_⟩
    rcases mem_optional.mp hpoint with hpoint | rfl
    · obtain ⟨c, rfl, rfl⟩ := mem_letters.mp hpoint
      exact .inl ⟨whole, hwhole, ds, hds, by simp only [List.append_assoc, List.cons_append,
        List.nil_append]⟩
    · obtain ⟨hne, hall⟩ := mem_digits.mp hds
      refine .inr ⟨whole ++ ds, mem_digits.mpr ⟨by simp [hne], fun c hc => ?_⟩, ?_⟩
      · exact (List.mem_append.mp hc).elim (mem_kstar_digit.mp hwhole c) (hall c)
      · simp only [List.append_assoc, List.nil_append]
  · rintro ⟨s, hs, e, he, ⟨whole, hwhole, fraction, hfraction, rfl⟩ | ⟨whole, hwhole, rfl⟩⟩
    · refine ⟨_, ⟨_, ⟨_, ⟨s, hs, whole, hwhole, rfl⟩, ['.'], ?_, rfl⟩, fraction, hfraction, rfl⟩,
        e, he, ?_⟩
      · exact mem_optional.mpr (.inl ⟨'.', rfl, rfl⟩)
      · simp only [List.append_assoc, List.cons_append, List.nil_append]
    · refine ⟨_, ⟨_, ⟨_, ⟨s, hs, [], ?_, rfl⟩, [], mem_optional.mpr (.inr rfl), rfl⟩, whole, hwhole,
        rfl⟩, e, he, ?_⟩
      · exact mem_kstar_digit.mpr fun c hc => absurd hc List.not_mem_nil
      · simp only [List.append_assoc, List.nil_append]

end

end Numeral

/-! ## What the parts of a numeral are read to be -/

section

open Numeral

variable {s ds e text : List Char}

/-- What is split off as a sign is one, or nothing. -/
theorem splitSign_mem (text : List Char) : (splitSign text).1 ∈ optional signs := by
  unfold splitSign
  split
  · exact mem_optional.mpr (.inr rfl)
  · split
    · rename_i c _ hc
      simp only [Bool.or_eq_true, decide_eq_true_eq] at hc
      exact mem_optional.mpr (.inl ⟨c, hc.symm, rfl⟩)
    · exact mem_optional.mpr (.inr rfl)

/-- A sign is read in front of what does not begin with one. -/
theorem splitSign_of_mem (hs : s ∈ optional signs)
    (htext : ∀ c ∈ text.head?, c.isDigit = true ∨ c = '.') :
    splitSign (s ++ text) = (s, text) := by
  rcases mem_optional.mp hs with ⟨c, hc, rfl⟩ | rfl
  · rcases hc with rfl | rfl <;> rfl
  · rw [List.nil_append]
    cases text with
    | nil => rfl
    | cons c text =>
      refine if_neg fun hc => ?_
      simp only [Bool.or_eq_true, decide_eq_true_eq] at hc
      rcases hc with rfl | rfl <;> exact absurd (htext _ rfl) (by decide)

/-- What is split off as digits is digits. -/
theorem splitDigits_mem (text : List Char) : (splitDigits text).1 ∈ digit∗ :=
  mem_kstar_digit.mpr (List.all_eq_true.mp List.all_takeWhile)

/-- At least the digits that stand in front are read. -/
theorem splitDigits_of_mem (hds : ds ∈ digit∗) :
    splitDigits (ds ++ text) = (ds ++ (splitDigits text).1, (splitDigits text).2) := by
  have hall := mem_kstar_digit.mp hds
  rw [splitDigits, List.takeWhile_append_of_pos hall, List.dropWhile_append_of_pos hall]
  rfl

theorem splitDigits_cons_of_ne {c : Char} (hc : c.isDigit = false) (text : List Char) :
    splitDigits (c :: text) = ([], c :: text) := by
  have hneg : ¬c.isDigit = true := by rw [hc]; exact Bool.false_ne_true
  rw [splitDigits, List.takeWhile_cons_of_neg hneg, List.dropWhile_cons_of_neg hneg]

theorem kstar_of_mem_digits (hds : ds ∈ digits) : ds ∈ digit∗ :=
  mem_kstar_digit.mpr (mem_digits.mp hds).2

/-- What is split off as a fraction is digits. -/
theorem splitFraction_mem (text : List Char) :
    (splitFraction text).1 ∈ digit∗ := by
  cases text with
  | nil => exact mem_kstar_digit.mpr fun c hc => absurd hc List.not_mem_nil
  | cons c text =>
    simp only [splitFraction]
    split
    · exact splitDigits_mem text
    · exact mem_kstar_digit.mpr fun c hc => absurd hc List.not_mem_nil

/-- Digits behind a point are read with all digits that follow them. -/
theorem splitFraction_of_mem (hds : ds ∈ digits) :
    splitFraction ('.' :: (ds ++ text)) = (ds ++ (splitDigits text).1, (splitDigits text).2) := by
  have hne : (ds ++ (splitDigits text).1).isEmpty = false := by
    rw [List.isEmpty_eq_false_iff]
    exact List.append_ne_nil_of_left_ne_nil (mem_digits.mp hds).1 _
  simp only [splitFraction, splitDigits_of_mem (kstar_of_mem_digits hds), hne]
  rfl

/-- How the digits behind a point are written, if there are any. -/
def writtenFraction (ds : List Char) : List Char :=
  if ds.isEmpty then [] else '.' :: ds

theorem writtenFraction_of_ne_nil (h : ds ≠ []) : writtenFraction ds = '.' :: ds :=
  if_neg fun hempty => h (List.isEmpty_iff.mp hempty)

/-- How an exponent is written, if there is one. -/
def writtenExponent (e : Option ExponentPart) : List Char :=
  (e.map ExponentPart.text).getD []

/-- What is read as an exponent is a letter, a sign perhaps, and digits. -/
theorem splitExponent_eq_none_or_some (text : List Char) : (splitExponent text).1 = none ∨
    ∃ c s ds, (splitExponent text).1 = some ⟨c, s, ds⟩ ∧ (c = 'e' ∨ c = 'E') ∧
      s ∈ optional signs ∧ ds ∈ digits := by
  cases text with
  | nil => exact .inl rfl
  | cons c text =>
    simp only [splitExponent]
    split
    · rename_i hc
      simp only [Bool.and_eq_true, Bool.or_eq_true, decide_eq_true_eq, Bool.not_eq_true',
        List.isEmpty_eq_false_iff] at hc
      have hdigits := mem_kstar_digit.mp (splitDigits_mem (splitSign text).2)
      exact .inr ⟨c, _, _, rfl, hc.1, splitSign_mem text, mem_digits.mpr ⟨hc.2, hdigits⟩⟩
    · exact .inl rfl

/-- What is split off as an exponent is one, or nothing. -/
theorem splitExponent_mem (text : List Char) :
    writtenExponent (splitExponent text).1 ∈ optional exponents := by
  rcases splitExponent_eq_none_or_some text with h | ⟨c, s, ds, h, hc, hs, hds⟩
  · rw [h]
    exact mem_optional.mpr (.inr rfl)
  · rw [h]
    exact mem_optional.mpr (.inl (mem_exponents.mpr ⟨c, s, ds, rfl, hc, hs, hds⟩))

/-- Digits begin with a digit. -/
theorem isDigit_or_point_of_digits (h : ds ∈ digits) (text : List Char) :
    ∀ c ∈ (ds ++ text).head?, c.isDigit = true ∨ c = '.' := by
  obtain ⟨hne, hall⟩ := mem_digits.mp h
  obtain ⟨d, more, rfl⟩ := List.exists_cons_of_ne_nil hne
  intro c hc
  cases hc
  exact .inl (hall _ List.mem_cons_self)

/-- Digits in front of a point begin with a digit, or with the point if there are none. -/
theorem isDigit_or_point_of_point (h : ds ∈ digit∗) (text : List Char) :
    ∀ c ∈ (ds ++ '.' :: text).head?, c.isDigit = true ∨ c = '.' := by
  by_cases hempty : ds = []
  · rw [hempty]
    intro c hc
    cases hc
    exact .inr rfl
  · exact isDigit_or_point_of_digits (mem_digits.mpr ⟨hempty, mem_kstar_digit.mp h⟩) _

/-- An exponent is read with all digits that follow it. -/
theorem splitExponent_of_mem {c : Char} (hc : c = 'e' ∨ c = 'E') (hs : s ∈ optional signs)
    (hds : ds ∈ digits) (text : List Char) :
    splitExponent (c :: (s ++ (ds ++ text))) =
      (some ⟨c, s, ds ++ (splitDigits text).1⟩, (splitDigits text).2) := by
  have hc' : (decide (c = 'e') || decide (c = 'E')) = true := by simpa using hc
  have hne : ((ds ++ (splitDigits text).1).isEmpty) = false := by
    rw [List.isEmpty_eq_false_iff]
    exact List.append_ne_nil_of_left_ne_nil (mem_digits.mp hds).1 _
  simp only [splitExponent, splitSign_of_mem hs (isDigit_or_point_of_digits hds text),
    splitDigits_of_mem (kstar_of_mem_digits hds), hc', hne]
  rfl

/-- At least the exponent that stands in front is read. -/
theorem length_le_splitExponent (he : e ∈ optional exponents) (text : List Char) :
    e.length ≤ (writtenExponent (splitExponent (e ++ text)).1).length := by
  rcases mem_optional.mp he with he | rfl
  · obtain ⟨c, s, ds, rfl, hc, hs, hds⟩ := mem_exponents.mp he
    rw [List.cons_append, List.append_assoc, splitExponent_of_mem hc hs hds]
    change _ ≤ (c :: (s ++ (ds ++ (splitDigits text).1))).length
    simp only [List.length_cons, List.length_append]
    omega
  · exact Nat.zero_le _

/-- An exponent is not taken for digits, nor for a point. -/
theorem splitDigits_exponent (he : e ∈ optional exponents) (text : List Char) :
    e = [] ∨ splitDigits (e ++ text) = ([], e ++ text) ∧
      splitFraction (e ++ text) = ([], e ++ text) := by
  rcases mem_optional.mp he with he | rfl
  · obtain ⟨c, s, ds, rfl, hc, -⟩ := mem_exponents.mp he
    refine .inr ?_
    rw [List.cons_append]
    rcases hc with rfl | rfl <;> exact ⟨splitDigits_cons_of_ne rfl _, rfl⟩
  · exact .inl rfl

/-- What was read as an exponent is read again where it stands alone. -/
theorem splitExponent_written (text : List Char) :
    splitExponent (writtenExponent (splitExponent text).1) = ((splitExponent text).1, []) := by
  rcases splitExponent_eq_none_or_some text with h | ⟨c, s, ds, h, hc, hs, hds⟩
  · rw [h]
    rfl
  · have hread := splitExponent_of_mem hc hs hds []
    rw [List.append_nil] at hread
    rw [h]
    refine hread.trans ?_
    change (some (ExponentPart.mk c s (ds ++ [])), []) = _
    rw [List.append_nil]

/-- In front of an exponent the digits behind the point are read, and neither of both is taken for
digits. -/
theorem splitFraction_written (hds : ds ∈ digit∗) (he : e ∈ optional exponents) :
    splitDigits (writtenFraction ds ++ e) = ([], writtenFraction ds ++ e) ∧
      splitFraction (writtenFraction ds ++ e) = (ds, e) := by
  have halone : splitDigits e = ([], e) ∧ splitFraction e = ([], e) := by
    rcases splitDigits_exponent he [] with rfl | h
    · exact ⟨rfl, rfl⟩
    · rwa [List.append_nil] at h
  by_cases hempty : ds = []
  · rw [hempty]
    exact halone
  · have hdigits : ds ∈ digits := mem_digits.mpr ⟨hempty, mem_kstar_digit.mp hds⟩
    rw [writtenFraction_of_ne_nil hempty, List.cons_append]
    refine ⟨splitDigits_cons_of_ne rfl _, ?_⟩
    rw [splitFraction_of_mem hdigits, halone.1, List.append_nil]

end

namespace Numeral

variable {text w : List Char} {n : Numeral}

/-- What is read is the sign, the digits and the exponent, one after the other. -/
theorem read_eq_some {sgn afterSign whole afterWhole fraction afterFraction : List Char}
    (hsign : splitSign text = (sgn, afterSign))
    (hwhole : splitDigits afterSign = (whole, afterWhole))
    (hfraction : splitFraction afterWhole = (fraction, afterFraction))
    (hne : whole ≠ [] ∨ fraction ≠ []) :
    read text = some ⟨sgn, whole, fraction, (splitExponent afterFraction).1⟩ := by
  simp only [read, hsign, hwhole, hfraction]
  refine if_neg fun hempty => ?_
  rw [Bool.and_eq_true, List.isEmpty_iff, List.isEmpty_iff] at hempty
  exact hne.elim (absurd hempty.1) (absurd hempty.2)

/-- A numeral is written as its parts, one behind the other. -/
theorem text_eq (n : Numeral) : n.text =
    n.sign ++ (n.whole ++ (writtenFraction n.fraction ++ writtenExponent n.exponent)) := by
  rw [Numeral.text, List.append_assoc, List.append_assoc]
  rfl

/-- The parts of what is read. -/
theorem parts_of_read (h : read text = some n) : n.sign ∈ optional signs ∧ n.whole ∈ digit∗ ∧
    n.fraction ∈ digit∗ ∧ (n.whole ≠ [] ∨ n.fraction ≠ []) ∧
    ∃ behind, n.exponent = (splitExponent behind).1 := by
  have hsign := splitSign_mem text
  have hwhole := splitDigits_mem (splitSign text).2
  have hfraction := splitFraction_mem (splitDigits (splitSign text).2).2
  unfold read at h
  simp only at h
  split at h
  · cases h
  · rename_i hne
    cases h
    rw [Bool.and_eq_true, List.isEmpty_iff, List.isEmpty_iff] at hne
    exact ⟨hsign, hwhole, hfraction, not_and_or.mp hne, _, rfl⟩

/-- What is read is a numeral. -/
theorem mem_of_read (h : read text = some n) : n.text ∈ language := by
  obtain ⟨hsign, hwhole, hfraction, hne, behind, hexponent⟩ := parts_of_read h
  have he : writtenExponent n.exponent ∈ optional exponents := hexponent ▸ splitExponent_mem behind
  refine mem_language.mpr ⟨_, hsign, _, he, ?_⟩
  rw [text_eq]
  by_cases hempty : n.fraction = []
  · have hne' := hne.resolve_right fun h => h hempty
    refine .inr ⟨_, mem_digits.mpr ⟨hne', mem_kstar_digit.mp hwhole⟩, ?_⟩
    rw [hempty]
    rfl
  · refine .inl ⟨_, hwhole, _, mem_digits.mpr ⟨hempty, mem_kstar_digit.mp hfraction⟩, ?_⟩
    rw [writtenFraction_of_ne_nil hempty, List.cons_append]

/-- A numeral that was read off a text is read again where it stands alone. -/
theorem read_text_of_read (h : read text = some n) : read n.text = some n := by
  obtain ⟨hsign, hwhole, hfraction, hne, behind, hexponent⟩ := parts_of_read h
  have he : writtenExponent n.exponent ∈ optional exponents := hexponent ▸ splitExponent_mem behind
  have hwritten : splitExponent (writtenExponent n.exponent) = (n.exponent, []) :=
    hexponent ▸ splitExponent_written behind
  obtain ⟨hdigits, hpoint⟩ := splitFraction_written hfraction he
  -- a digit or the point ends the sign
  have hfirst : ∀ c ∈ (n.whole ++ (writtenFraction n.fraction ++
      writtenExponent n.exponent)).head?, c.isDigit = true ∨ c = '.' := by
    by_cases hempty : n.fraction = []
    · have hne' := hne.resolve_right fun h => h hempty
      exact isDigit_or_point_of_digits (mem_digits.mpr ⟨hne', mem_kstar_digit.mp hwhole⟩) _
    · rw [writtenFraction_of_ne_nil hempty]
      exact isDigit_or_point_of_point hwhole _
  have hread : splitDigits (n.whole ++ (writtenFraction n.fraction ++
      writtenExponent n.exponent)) = _ := splitDigits_of_mem hwhole
  rw [hdigits, List.append_nil] at hread
  rw [text_eq, read_eq_some (splitSign_of_mem hsign hfirst) hread hpoint hne, hwritten]

theorem length_text (n : Numeral) : n.text.length = n.sign.length + n.whole.length +
    (if n.fraction = [] then 0 else n.fraction.length + 1) +
    (writtenExponent n.exponent).length := by
  unfold Numeral.text writtenExponent
  by_cases hempty : n.fraction = [] <;> simp [hempty] <;> omega

/-- At least the exponent that stands in front is read, where digits and a point are looked for
first. -/
theorem length_le_behind_digits {e : List Char} (he : e ∈ optional exponents) (rest : List Char) :
    e.length ≤ (writtenExponent (splitExponent (splitDigits (e ++ rest)).2).1).length ∧
      e.length ≤ (writtenExponent
        (splitExponent (splitFraction (splitDigits (e ++ rest)).2).2).1).length := by
  rcases splitDigits_exponent he rest with rfl | ⟨hdigits, hfraction⟩
  · exact ⟨Nat.zero_le _, Nat.zero_le _⟩
  · rw [hdigits, hfraction]
    exact ⟨length_le_splitExponent he rest, length_le_splitExponent he rest⟩

/-- Of a numeral with a point at least as much is read. -/
theorem length_le_of_read_point {sgn whole fraction e rest : List Char}
    (hsign : sgn ∈ optional signs) (hwhole : whole ∈ digit∗) (hfraction : fraction ∈ digits)
    (he : e ∈ optional exponents) :
    ∃ n, read (sgn ++ (whole ++ '.' :: (fraction ++ e)) ++ rest) = some n ∧
      (sgn ++ (whole ++ '.' :: (fraction ++ e))).length ≤ n.text.length := by
  have hne := (mem_digits.mp hfraction).1
  -- the point ends the digits in front of it, and digits are behind it
  have hdigits : splitDigits (whole ++ '.' :: (fraction ++ (e ++ rest))) =
      (whole, '.' :: (fraction ++ (e ++ rest))) := by
    rw [splitDigits_of_mem hwhole, splitDigits_cons_of_ne rfl, List.append_nil]
  have hread := read_eq_some (splitSign_of_mem hsign (isDigit_or_point_of_point hwhole _)) hdigits
    (splitFraction_of_mem hfraction) (.inr (List.append_ne_nil_of_left_ne_nil hne _))
  have hle := (length_le_behind_digits he rest).1
  simp only [List.append_assoc, List.cons_append]
  refine ⟨_, hread, ?_⟩
  rw [length_text]
  simp only [List.append_eq_nil_iff, hne, false_and, if_false, List.length_append,
    List.length_cons]
  omega

/-- Of a numeral without a point at least as much is read. -/
theorem length_le_of_read_digits {sgn whole e rest : List Char}
    (hsign : sgn ∈ optional signs) (hwhole : whole ∈ digits) (he : e ∈ optional exponents) :
    ∃ n, read (sgn ++ (whole ++ e) ++ rest) = some n ∧
      (sgn ++ (whole ++ e)).length ≤ n.text.length := by
  have hne := (mem_digits.mp hwhole).1
  have hfirst := isDigit_or_point_of_digits hwhole (e ++ rest)
  have hread := read_eq_some (splitSign_of_mem hsign hfirst)
    (splitDigits_of_mem (kstar_of_mem_digits hwhole)) Prod.mk.eta.symm
    (.inl (List.append_ne_nil_of_left_ne_nil hne _))
  have hle := (length_le_behind_digits he rest).2
  simp only [List.append_assoc]
  refine ⟨_, hread, ?_⟩
  rw [length_text]
  simp only [List.length_append]
  omega

/-- No numeral in front of a text is longer than the one that is read. -/
theorem length_le_of_read (hw : w ∈ language) (hfront : w <+: text) :
    ∃ n, read text = some n ∧ w.length ≤ n.text.length := by
  obtain ⟨rest, rfl⟩ := hfront
  obtain ⟨s, hs, e, he, ⟨whole, hwhole, fraction, hfraction, rfl⟩ | ⟨whole, hwhole, rfl⟩⟩ :=
    mem_language.mp hw
  · exact length_le_of_read_point hs hwhole hfraction he
  · exact length_le_of_read_digits hs hwhole he

/-- What is read is the longest numeral in front of a text. -/
theorem longest_of_read (h : read text = some n) : Longest n.text text where
  mem := mem_of_read h
  isPrefix := text_prefix_of_read h
  length_le v hv hfront := by
    obtain ⟨m, hm, hle⟩ := length_le_of_read hv hfront
    rw [h] at hm
    cases hm
    exact hle

/-- The longest numeral in front of a text is the longest word of the language there. -/
theorem Longest.longestOf (h : Longest w text) : LongestOf language w text :=
  ⟨h.mem, h.isPrefix, h.length_le⟩

/-- There is one longest numeral in front of a text at most. -/
theorem Longest.unique {v : List Char} (hv : Longest v text) (hw : Longest w text) : v = w :=
  hv.longestOf.unique hw.longestOf

/-- Something is read where a numeral stands in front. -/
theorem isSome_read_iff : (read text).isSome = true ↔ ∃ w ∈ language, w <+: text := by
  constructor
  · intro h
    obtain ⟨n, hn⟩ := Option.isSome_iff_exists.mp h
    exact ⟨n.text, mem_of_read hn, text_prefix_of_read hn⟩
  · rintro ⟨w, hw, hfront⟩
    obtain ⟨n, hn, -⟩ := length_le_of_read hw hfront
    rw [hn]
    rfl

end Numeral

end Text

/-! ## The parser -/

section

open Text

variable {C ρ : Type} [TextCursor C] [Cursor.Lawful C] [Cursor.Listed C] [TextCursor.Exact C]

/-- The parser for numerals succeeds just where a numeral stands in front. Then it has read the
longest one and is behind it; otherwise it fails where it started. -/
theorem Parser.run_float (env : Environment TextPrimitive ρ) (fuel : ℕ)
    (ctx : Context TextPrimitive ρ) (c : C) (t : Session C ρ) :
    ((∃ x d, (scan float).run env (fuel + 1) ctx c t = (.ok (.success x d), t)) ↔
      ∃ w ∈ Numeral.language, w <+: TextCursor.rest c) ∧
    (∀ x d t', (scan float).run env (fuel + 1) ctx c t = (.ok (.success x d), t') →
      ∃ n : Numeral, Numeral.Longest n.text (TextCursor.rest c) ∧ x = n.toFloat ∧
        d = Cursor.next^[n.text.length] c ∧ t' = t) ∧
    ((∀ w ∈ Numeral.language, ¬ w <+: TextCursor.rest c) →
      (scan float).run env (fuel + 1) ctx c t =
        (.ok (.noSuccess (.failure "float" (Cursor.location c))), t)) := by
  rcases hread : Numeral.read (TextCursor.rest c) with _ | n
  · -- nothing is read, so that no word of the language is in front
    have hnone : ¬ ∃ w ∈ Numeral.language, w <+: TextCursor.rest c := by
      rw [← Numeral.isSome_read_iff, hread]
      exact Bool.false_ne_true
    have hscan : float.scan (TextCursor.rest c) = none := by
      change (Numeral.read _).map _ = none
      rw [hread]
      rfl
    have hrun := run_scan (Recognizer.scan_of_none hscan) env fuel ctx t
    refine ⟨iff_of_false ?_ hnone, fun x d t' h => ?_, fun _ => hrun⟩
    · rintro ⟨x, d, h⟩
      rw [hrun] at h
      cases h
    · rw [hrun] at h
      cases h
  · have hlongest := Numeral.longest_of_read hread
    obtain ⟨rest, hrest⟩ := hlongest.isPrefix
    have hscan : float.scan (TextCursor.rest c) = some (n.toFloat, byteLength n.text) := by
      change (Numeral.read _).map _ = _
      rw [hread]
      rfl
    have hrun := run_scan (Recognizer.scan_of_some hrest.symm hscan) env fuel ctx t
    have hword : ∃ w ∈ Numeral.language, w <+: TextCursor.rest c :=
      ⟨n.text, hlongest.mem, hlongest.isPrefix⟩
    refine ⟨iff_of_true ⟨_, _, hrun⟩ hword, fun x d t' h => ?_, fun hnone => ?_⟩
    · rw [hrun] at h
      cases h
      exact ⟨n, hlongest, rfl, rfl, rfl⟩
    · exact absurd hlongest.isPrefix (hnone n.text hlongest.mem)

end

/-- An exponent without digits is left: of `-1.5e+x` the parser reads `-1.5`. -/
theorem Parser.run_float_incomplete :
    ∃ n : Text.Numeral, n.text = "-1.5".toList ∧
      (scan Text.float).run Hexadecimal.names 1 {}
          (TextReader.ofChars "-1.5e+x".toList (.lineColumn {}) ⟨0⟩) {} =
        (.ok (.success n.toFloat
          ⟨"-1.5e+x".toList, "e+x".toList, 4, .lineColumn ⟨1, 4⟩, ⟨0⟩⟩), {}) := by
  have hlongest : Text.Numeral.Longest "-1.5".toList "-1.5e+x".toList :=
    Text.Numeral.longest_of_read (n := ⟨['-'], ['1'], ['5'], none⟩) rfl
  obtain ⟨hiff, hreads, -⟩ := run_float Hexadecimal.names 0 {}
    (TextReader.ofChars "-1.5e+x".toList (.lineColumn {}) ⟨0⟩) {}
  obtain ⟨x, d, hrun⟩ := hiff.mpr ⟨_, hlongest.mem, hlongest.isPrefix⟩
  obtain ⟨n, hn, rfl, rfl, -⟩ := hreads x d {} hrun
  have htext := hn.unique hlongest
  refine ⟨n, htext, ?_⟩
  rw [htext] at hrun
  exact hrun

end Parsing
