import Mathlib.Data.List.Forall2
import Mathlib.Data.Nat.Digits.Defs
import Mathlib.Tactic.IntervalCases
import Mathlib.Tactic.Ring
import Parsing.Proofs.Text.CInteger

/-!
# Numbers in a radix

A number in a radix is written with digits that stand for values below the radix, the greatest place
first, in small or in capital letters (`Spells`). The parsers for such numbers take all digits that
are there, and succeed if there is one at least and the number is below `2 ^ 63`
(`Parser.run_number`). So they read back what is printed, whatever zeros stand in front of it.
-/

namespace Parsing

namespace Text

variable {radix d n : ℕ} {c : Char} {digits rest text : List Char} {values : List ℕ}

/-! ## Digits -/

/-- Whether a character is the digit for a value, be it a small letter or a capital one. -/
structure IsDigit (radix : ℕ) (c : Char) (value : ℕ) : Prop where
  lt : value < radix
  toLower_eq : c.toLower = value.digitChar

/-- Whether characters are the digits for some values, one by one. -/
abbrev Spells (radix : ℕ) : List Char → List ℕ → Prop :=
  List.Forall₂ (IsDigit radix)

/-- Lower case changes capital letters only. -/
theorem toLower_eq_or_exists (c : Char) :
    c.toLower = c ∨ ∃ n, 65 ≤ n ∧ n ≤ 90 ∧ c = Char.ofNat n := by
  unfold Char.toLower
  split
  · rename_i h
    exact .inr ⟨c.toNat, h.1, h.2, c.ofNat_toNat.symm⟩
  · exact .inl rfl

/-- The case of a digit does not change its value. -/
theorem digitValue_toLower (c : Char) : digitValue c.toLower = digitValue c := by
  rcases toLower_eq_or_exists c with h | ⟨n, hle, hge, rfl⟩
  · rw [h]
  · interval_cases n <;> rfl

theorem isDigitIn_toLower (radix : ℕ) (c : Char) :
    isDigitIn radix c.toLower = isDigitIn radix c := by
  rw [isDigitIn, isDigitIn, digitValue_toLower]
  rcases toLower_eq_or_exists c with h | ⟨n, hle, hge, rfl⟩
  · rw [h]
  · interval_cases n <;> rfl

theorem digitValue_digitChar (h : d < 16) : digitValue d.digitChar = d := by
  interval_cases d <;> rfl

/-- A value below the radix has a digit. -/
theorem isDigitIn_digitChar (hradix : radix ≤ 16) (h : d < radix) :
    isDigitIn radix d.digitChar = true := by
  have hlt : d < 16 := Nat.lt_of_lt_of_le h hradix
  rw [isDigitIn, digitValue_digitChar hlt, decide_eq_true h, Bool.and_true]
  interval_cases d <;> rfl

/-- The digits up to the radix 16, by code point. -/
theorem exists_of_isDigitIn (hradix : radix ≤ 16) (h : isDigitIn radix c = true) :
    ∃ n, c = Char.ofNat n ∧ (48 ≤ n ∧ n ≤ 57 ∨ 65 ≤ n ∧ n ≤ 70 ∨ 97 ≤ n ∧ n ≤ 102) := by
  refine ⟨c.toNat, c.ofNat_toNat.symm, ?_⟩
  by_cases hdigit : c.isDigit = true
  · exact .inl (Char.isDigit_iff_toNat.mp hdigit)
  · refine .inr ?_
    by_cases hlower : c.isLower = true
    · have hge : 97 ≤ c.toNat := of_decide_eq_true (Bool.and_eq_true_iff.mp hlower).1
      simp [isDigitIn, digitValue, hdigit, hlower] at h
      omega
    · simp [isDigitIn, digitValue, hdigit, hlower] at h
      have hge : 65 ≤ c.toNat := (of_decide_eq_true h.1).1
      omega

/-- A digit is in lower case the digit of its value. -/
theorem toLower_eq_digitChar (hradix : radix ≤ 16) (h : isDigitIn radix c = true) :
    c.toLower = (digitValue c).digitChar := by
  obtain ⟨n, rfl, ⟨hge, hle⟩ | ⟨hge, hle⟩ | ⟨hge, hle⟩⟩ := exists_of_isDigitIn hradix h
  all_goals interval_cases n <;> rfl

/-- What is read as a digit is one. -/
theorem isDigit_iff (hradix : radix ≤ 16) :
    IsDigit radix c d ↔ isDigitIn radix c = true ∧ digitValue c = d := by
  constructor
  · intro h
    rw [← isDigitIn_toLower, ← digitValue_toLower, h.toLower_eq]
    exact ⟨isDigitIn_digitChar hradix h.lt, digitValue_digitChar (Nat.lt_of_lt_of_le h.lt hradix)⟩
  · rintro ⟨h, rfl⟩
    refine ⟨?_, toLower_eq_digitChar hradix h⟩
    rw [isDigitIn, Bool.and_eq_true] at h
    exact of_decide_eq_true h.2

theorem spells_map_digitValue (hradix : radix ≤ 16) (h : ∀ c ∈ digits, isDigitIn radix c = true) :
    Spells radix digits (digits.map digitValue) := by
  rw [Spells, List.forall₂_map_right_iff, List.forall₂_same]
  exact fun c hc => (isDigit_iff hradix).mpr ⟨h c hc, rfl⟩

theorem Spells.isDigitIn (h : Spells radix digits values) (hradix : radix ≤ 16) :
    ∀ c ∈ digits, isDigitIn radix c = true := by
  induction h with
  | nil => exact List.forall_mem_nil _
  | cons hdigit _ ih => exact List.forall_mem_cons.mpr ⟨((isDigit_iff hradix).mp hdigit).1, ih⟩

/-! ## Values -/

/-- Digits stand for the number that their values stand for. -/
theorem foldl_digits (h : Spells radix digits values) (hradix : radix ≤ 16) (n : ℕ) :
    digits.foldl (fun n c => n * radix + digitValue c) n =
      n * radix ^ values.length + Nat.ofDigits radix values.reverse := by
  induction h generalizing n with
  | nil => simp
  | @cons c d digits values hdigit _ ih =>
    rw [List.foldl_cons, ih, ((isDigit_iff hradix).mp hdigit).2, List.reverse_cons,
      Nat.ofDigits_append, Nat.ofDigits_singleton, List.length_reverse, List.length_cons, pow_succ]
    ring

/-- Digits denote the sum of what they stand for, each times its place. -/
theorem Spells.digitsValue_eq (h : Spells radix digits values) (hradix : radix ≤ 16) :
    digitsValue radix digits = Nat.ofDigits radix values.reverse := by
  rw [digitsValue, foldl_digits h hradix, Nat.zero_mul, Nat.zero_add]

theorem digitsValue_concat (radix : ℕ) (digits : List Char) (c : Char) :
    digitsValue radix (digits ++ [c]) = digitsValue radix digits * radix + digitValue c :=
  List.foldl_append

/-- Zeros in front of digits do not change their value. -/
theorem digitsValue_zeros (radix zeros : ℕ) (digits : List Char) :
    digitsValue radix (List.replicate zeros '0' ++ digits) = digitsValue radix digits := by
  induction zeros with
  | zero => rfl
  | succ zeros ih =>
    rw [List.replicate_succ, List.cons_append, digitsValue, List.foldl_cons, Nat.zero_mul]
    exact ih

/-- The case of digits does not change their value. -/
theorem digitsValue_map_toLower (radix : ℕ) (digits : List Char) :
    digitsValue radix (digits.map Char.toLower) = digitsValue radix digits := by
  simp only [digitsValue, List.foldl_map, digitValue_toLower]

/-! ## Printed numbers -/

/-- What is printed consists of digits. -/
theorem isDigitIn_of_mem_toDigits (hlow : 1 < radix) (hradix : radix ≤ 16)
    (h : c ∈ Nat.toDigits radix n) : isDigitIn radix c = true := by
  induction n using Nat.strong_induction_on with
  | _ n ih =>
    rw [Nat.toDigits_eq_if hlow] at h
    split at h
    · rename_i hlt
      cases List.mem_singleton.mp h
      exact isDigitIn_digitChar hradix hlt
    · rename_i hge
      rcases List.mem_append.mp h with h | h
      · have hpos : 0 < n := by omega
        exact ih _ (Nat.div_lt_self hpos hlow) h
      · cases List.mem_singleton.mp h
        exact isDigitIn_digitChar hradix (Nat.mod_lt n (Nat.zero_lt_of_lt hlow))

/-- What is printed denotes the number. -/
theorem digitsValue_toDigits (hlow : 1 < radix) (hradix : radix ≤ 16) (n : ℕ) :
    digitsValue radix (Nat.toDigits radix n) = n := by
  induction n using Nat.strong_induction_on with
  | _ n ih =>
    rw [Nat.toDigits_eq_if hlow]
    split
    · rename_i hlt
      have hvalue := digitValue_digitChar (Nat.lt_of_lt_of_le hlt hradix)
      simpa [digitsValue] using hvalue
    · rename_i hge
      have hpos : 0 < n := by omega
      have hlast : n % radix < 16 :=
        Nat.lt_of_lt_of_le (Nat.mod_lt n (Nat.zero_lt_of_lt hlow)) hradix
      rw [digitsValue_concat, ih _ (Nat.div_lt_self hpos hlow), digitValue_digitChar hlast]
      exact Nat.div_add_mod' n radix

/-- Whether characters are a printed number, which may have zeros in front of it and letters of
either case. -/
def Renders (radix n : ℕ) (written : List Char) : Prop :=
  ∃ zeros, written.map Char.toLower = List.replicate zeros '0' ++ Nat.toDigits radix n

/-- What renders a number stands for it. -/
theorem Renders.digitsValue_eq (h : Renders radix n digits) (hlow : 1 < radix)
    (hradix : radix ≤ 16) : digitsValue radix digits = n := by
  obtain ⟨zeros, hdigits⟩ := h
  rw [← digitsValue_map_toLower, hdigits, digitsValue_zeros, digitsValue_toDigits hlow hradix]

theorem Renders.isDigitIn (h : Renders radix n digits) (hlow : 1 < radix) (hradix : radix ≤ 16) :
    ∀ c ∈ digits, isDigitIn radix c = true := by
  obtain ⟨zeros, hdigits⟩ := h
  intro c hc
  have hlower : c.toLower ∈ List.replicate zeros '0' ++ Nat.toDigits radix n :=
    hdigits ▸ List.mem_map_of_mem hc
  rw [← isDigitIn_toLower]
  rcases List.mem_append.mp hlower with hzero | hprinted
  · rw [List.eq_of_mem_replicate hzero]
    exact isDigitIn_digitChar hradix (Nat.zero_lt_of_lt hlow)
  · exact isDigitIn_of_mem_toDigits hlow hradix hprinted

theorem Renders.ne_nil (h : Renders radix n digits) : digits ≠ [] := by
  obtain ⟨zeros, hdigits⟩ := h
  rintro rfl
  exact Nat.toDigits_ne_nil (List.append_eq_nil_iff.mp hdigits.symm).2

/-- A number is not too great if and only if it is below the bound of integers. -/
theorem le_largest_iff : n ≤ largest ↔ n < 2 ^ 63 := by
  have hlargest : largest + 1 = 2 ^ 63 := rfl
  rw [← hlargest, Nat.lt_succ_iff]

/-! ## The scanners -/

/-- The scanners for numbers and their radices. -/
inductive ScansRadix : Scanner ℕ → ℕ → Prop where
  | decimal : ScansRadix decimal 10
  | octal : ScansRadix octal 8
  | hexadecimal : ScansRadix hexadecimal 16

namespace ScansRadix

variable {s : Scanner ℕ}

theorem one_lt (h : ScansRadix s radix) : 1 < radix := by
  cases h <;> decide

theorem le_sixteen (h : ScansRadix s radix) : radix ≤ 16 := by
  cases h <;> decide

theorem scan_eq (h : ScansRadix s radix) : s.scan = readNumber radix := by
  cases h <;> rfl

/-- All digits are taken, and they are read if they denote a number that is not too large. -/
theorem scan_append (h : ScansRadix s radix) (hrun : IsRun radix digits rest) :
    s.scan (digits ++ rest) =
      if digits ≠ [] ∧ digitsValue radix digits < 2 ^ 63 then
        some (digitsValue radix digits, byteLength digits)
      else none := by
  rw [h.scan_eq]
  by_cases hne : digits = []
  · subst hne
    rw [readNumber, hrun.run_eq]
    rfl
  · rw [hrun.readNumber_eq hne, boundedValue_eq (Nat.zero_lt_of_lt h.one_lt), hrun.byteLength_eq,
      bounded]
    simp only [le_largest_iff, ne_eq, hne, not_false_eq_true, true_and]
    split <;> rfl

end ScansRadix

end Text

/-! ## The parsers -/

section

open Text

variable {C ρ : Type} [TextCursor C] [Cursor.Lawful C] [Cursor.Listed C] [TextCursor.Exact C]
  {s : Scanner ℕ} {radix : ℕ} {c : C} {digits rest : List Char}

/-- Where digits stand, the parser comes to their number behind them, or fails where they begin. -/
theorem Parser.run_scan_digits (h : ScansRadix s radix) (hrun : IsRun radix digits rest)
    (hrest : TextCursor.rest c = digits ++ rest) (env : Environment TextPrimitive ρ) (fuel : ℕ)
    (ctx : Context TextPrimitive ρ) (t : Session C ρ) :
    (scan s).run env (fuel + 1) ctx c t =
      (.ok (if digits ≠ [] ∧ digitsValue radix digits < 2 ^ 63 then
        .success (digitsValue radix digits) (Cursor.next^[digits.length] c)
      else .noSuccess (.failure s.expected (Cursor.location c))), t) := by
  have hscan := h.scan_append hrun
  rw [← hrest] at hscan
  split
  · rename_i hvalue
    rw [if_pos hvalue] at hscan
    exact run_scan (Recognizer.scan_of_some hrest hscan) env fuel ctx t
  · rename_i hvalue
    rw [if_neg hvalue] at hscan
    exact run_scan (Recognizer.scan_of_none hscan) env fuel ctx t

/-- The parser for numbers in a radix takes all digits with which a text begins. It succeeds with
their number if there are any and the number is below `2 ^ 63`, and fails otherwise. So it undoes
printing: it reads every such number, with zeros in front and letters of either case, and is behind
it then. -/
theorem Parser.run_number (h : ScansRadix s radix) (env : Environment TextPrimitive ρ) (fuel : ℕ)
    (ctx : Context TextPrimitive ρ) (c : C) (t : Session C ρ) :
    (∃ digits values rest, TextCursor.rest c = digits ++ rest ∧ Spells radix digits values ∧
      (∀ x ∈ rest.head?, ∀ d, ¬ IsDigit radix x d) ∧
      (scan s).run env (fuel + 1) ctx c t =
        (.ok (if digits ≠ [] ∧ Nat.ofDigits radix values.reverse < 2 ^ 63 then
          .success (Nat.ofDigits radix values.reverse) (Cursor.next^[digits.length] c)
        else .noSuccess (.failure s.expected (Cursor.location c))), t)) ∧
    ∀ n < 2 ^ 63, ∀ digits rest, Renders radix n digits →
      (∀ x ∈ rest.head?, ∀ d, ¬ IsDigit radix x d) → TextCursor.rest c = digits ++ rest →
      ∃ d, (scan s).run env (fuel + 1) ctx c t = (.ok (.success n d), t) ∧
        d = Cursor.next^[digits.length] c ∧ TextCursor.rest d = rest := by
  have hlow := h.one_lt
  have hradix := h.le_sixteen
  constructor
  · -- the digits in front of the text are spelled by their values
    have hrun := isRun_takeWhile radix (TextCursor.rest c)
    have hspells := spells_map_digitValue hradix hrun.isDigit
    have hrest := (List.takeWhile_append_dropWhile (p := isDigitIn radix)
      (l := TextCursor.rest c)).symm
    refine ⟨_, _, _, hrest, hspells, fun x hx d hd => ?_, ?_⟩
    · exact Bool.false_ne_true ((hrun.maximal x hx).symm.trans ((isDigit_iff hradix).mp hd).1)
    · rw [run_scan_digits h hrun hrest, hspells.digitsValue_eq hradix]
  · intro n hn digits rest hdigits hmaximal hrest
    -- digits that render a number are the run in front of what does not go on
    have hrun : IsRun radix digits rest := by
      refine ⟨hdigits.isDigitIn hlow hradix, fun x hx => Bool.eq_false_iff.mpr fun hdigit => ?_⟩
      exact hmaximal x hx _ ((isDigit_iff hradix).mpr ⟨hdigit, rfl⟩)
    refine ⟨_, ?_, rfl, ?_⟩
    · rw [run_scan_digits h hrun hrest, hdigits.digitsValue_eq hlow hradix,
        if_pos ⟨hdigits.ne_nil, hn⟩]
    · rw [TextCursor.rest_iterate_next, hrest, List.drop_left]

end

/-! ### The greatest number -/

open Hexadecimal in
/-- Sixteen digits and two zeros in front of them, in letters of both cases. -/
theorem Parser.run_number_greatest :
    (scan Text.hexadecimal).run names 1 {}
        (TextReader.ofChars "007FFFffffFFFFffffg".toList (.lineColumn {}) ⟨0⟩) {} =
      (.ok (.success (2 ^ 63 - 1)
        ⟨"007FFFffffFFFFffffg".toList, ['g'], 18, .lineColumn ⟨1, 18⟩, ⟨0⟩⟩), {}) := by
  have hnumber := run_number Text.ScansRadix.hexadecimal names 0 {}
    (TextReader.ofChars "007FFFffffFFFFffffg".toList (.lineColumn {}) ⟨0⟩) {}
  have hrenders : Text.Renders 16 (2 ^ 63 - 1) "007FFFffffFFFFffff".toList := ⟨2, by decide⟩
  have hmaximal : ∀ x ∈ ['g'].head?, ∀ d, ¬ Text.IsDigit 16 x d := by
    intro x hx d hd
    cases hx
    exact absurd ((Text.isDigit_iff (by decide)).mp hd).1 (by decide)
  obtain ⟨d, hrun, rfl, -⟩ := hnumber.2 (2 ^ 63 - 1) (by decide) _ ['g'] hrenders
    hmaximal rfl
  exact hrun

end Parsing
