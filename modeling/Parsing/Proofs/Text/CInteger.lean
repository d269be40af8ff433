import Parsing.Proofs.Text.Scan

/-!
# Integers as C writes them

A numeral is hexadecimal behind `0x` or `0X`, octal behind `0`, and decimal otherwise; it has as
many digits as there are (`CNumeral.Heads`). Its parser is to give the value of the numeral, or to
fail if that is too large (`CNumeral.outcome`). It does so for all numerals but the hexadecimal ones
that are too large (`Parser.run_cInteger`): behind these the next alternative is tried, which reads
the `0` alone.
-/

namespace Parsing

namespace Text

/-! ## Runs of digits -/

/-- Whether a text goes on with some digits and no further digit behind them. -/
structure IsRun (radix : ℕ) (digits rest : List Char) : Prop where
  isDigit : ∀ c ∈ digits, isDigitIn radix c = true
  maximal : ∀ c ∈ rest.head?, isDigitIn radix c = false

section

variable {radix : ℕ} {digits rest : List Char}

/-- The digits in front of a text are a run. -/
theorem isRun_takeWhile (radix : ℕ) (text : List Char) :
    IsRun radix (text.takeWhile (isDigitIn radix)) (text.dropWhile (isDigitIn radix)) where
  isDigit := List.all_eq_true.mp List.all_takeWhile
  maximal c hc := by
    have hnot := List.head?_dropWhile_not (isDigitIn radix) text
    rw [Option.mem_def.mp hc] at hnot
    exact hnot

theorem IsRun.takeWhile_eq (h : IsRun radix digits rest) :
    (digits ++ rest).takeWhile (isDigitIn radix) = digits := by
  rw [List.takeWhile_append_of_pos h.isDigit]
  cases rest with
  | nil => rw [List.takeWhile_nil, List.append_nil]
  | cons c rest =>
    rw [List.takeWhile_cons_of_neg (by simpa using h.maximal c rfl), List.append_nil]

theorem IsRun.byteLength_eq (h : IsRun radix digits rest) : byteLength digits = digits.length :=
  byteLength_of_forall fun c hc => utf8Size_of_isDigitIn (h.isDigit c hc)

theorem IsRun.run_eq (h : IsRun radix digits rest) :
    Scanner.run (isDigitIn radix) (digits ++ rest) = (digits, digits.length) := by
  rw [Scanner.run, h.takeWhile_eq, h.byteLength_eq]

/-- A run of digits is read as the number that it stands for, if that is not too great. -/
theorem IsRun.readNumber_eq (h : IsRun radix digits rest) (hne : digits ≠ []) :
    readNumber radix (digits ++ rest) = (boundedValue radix digits).map (·, digits.length) := by
  rw [readNumber, h.run_eq]
  simp only [List.isEmpty_iff, hne, if_false]

end

/-! ## Numerals -/

/-- An integer as C writes it. -/
structure CNumeral where
  radix : ℕ
  /-- What stands in front of the digits. -/
  lead : List Char
  digits : List Char

namespace CNumeral

variable {n : CNumeral} {text : List Char}

/-- The numeral as it is written. -/
def written (n : CNumeral) : List Char :=
  n.lead ++ n.digits

/-- The number that the numeral denotes. -/
def value (n : CNumeral) : ℕ :=
  digitsValue n.radix n.digits

/-- Whether a text begins with `0x` or `0X` and a hexadecimal digit. -/
def StartsHexadecimal (text : List Char) : Prop :=
  ∃ x d rest, text = '0' :: x :: d :: rest ∧ (x = 'x' ∨ x = 'X') ∧ isDigitIn 16 d = true

/-- Whether a text begins with a numeral, with all of its digits. -/
inductive Heads : CNumeral → List Char → Prop where
  | hexadecimal {x : Char} {digits rest : List Char} (hx : x = 'x' ∨ x = 'X') (hne : digits ≠ [])
    (hrun : IsRun 16 digits rest) : Heads ⟨16, ['0', x], digits⟩ ('0' :: x :: (digits ++ rest))
  | octal {digits rest : List Char} (hrun : IsRun 8 digits rest)
    (hother : ¬ StartsHexadecimal ('0' :: (digits ++ rest))) :
    Heads ⟨8, ['0'], digits⟩ ('0' :: (digits ++ rest))
  | decimal {digits rest : List Char} (hne : digits ≠ []) (hzero : digits.head? ≠ some '0')
    (hrun : IsRun 10 digits rest) : Heads ⟨10, [], digits⟩ (digits ++ rest)

/-- A numeral is in one of the texts that it heads with as many bytes as it has characters. -/
theorem Heads.exists_append (h : n.Heads text) :
    ∃ rest, text = n.written ++ rest ∧ byteLength n.written = n.written.length := by
  cases h with
  | @hexadecimal x digits rest hx hne hrun =>
    refine ⟨rest, rfl, ?_⟩
    have hsize : x.utf8Size = 1 := by rcases hx with rfl | rfl <;> rfl
    rw [written, byteLength_append, List.length_append, hrun.byteLength_eq, byteLength_cons,
      byteLength_cons, hsize]
    rfl
  | octal hrun hother =>
    refine ⟨_, rfl, ?_⟩
    rw [written, byteLength_append, List.length_append, hrun.byteLength_eq]
    rfl
  | decimal hne hzero hrun => exact ⟨_, rfl, hrun.byteLength_eq⟩

end CNumeral

/-- A hexadecimal numeral begins with a zero. -/
theorem CNumeral.Heads.exists_eq_zero_cons {n : CNumeral} {text : List Char} (h : n.Heads text)
    (hradix : n.radix = 16) : ∃ rest, text = '0' :: rest := by
  cases h with
  | hexadecimal hx hne hrun => exact ⟨_, rfl⟩
  | octal hrun hother => exact ⟨_, rfl⟩
  | decimal hne hzero hrun => exact absurd hradix (show ¬10 = 16 by decide)

/-- Decimal digits are digits in the radix ten. -/
theorem isDigitIn_ten (c : Char) : isDigitIn 10 c = c.isDigit := by
  unfold isDigitIn digitValue
  by_cases hdigit : c.isDigit = true
  · have hlast : c.toNat ≤ '9'.toNat := (Char.isDigit_iff_toNat.mp hdigit).2
    simp only [hdigit, Bool.true_or, Bool.true_and, if_true]
    exact decide_eq_true (Nat.lt_of_le_of_lt (Nat.sub_le_sub_right hlast _) (by decide))
  · rw [Bool.not_eq_true] at hdigit
    by_cases hlower : c.isLower = true
    · simp [hdigit, hlower]
    · simp [hdigit, hlower]

/-- A text begins with a numeral if it begins with a digit. -/
theorem CNumeral.exists_heads_iff {text : List Char} :
    (∃ n : CNumeral, n.Heads text) ↔ ∃ d ∈ text.head?, d.isDigit = true := by
  constructor
  · rintro ⟨n, h⟩
    cases h with
    | hexadecimal hx hne hrun => exact ⟨'0', rfl, rfl⟩
    | octal hrun hother => exact ⟨'0', rfl, rfl⟩
    | @decimal digits rest hne hzero hrun =>
      obtain ⟨d, digits, rfl⟩ := List.exists_cons_of_ne_nil hne
      exact ⟨d, rfl, (isDigitIn_ten d).symm.trans (hrun.isDigit d List.mem_cons_self)⟩
  · rintro ⟨d, hd, hdigit⟩
    obtain ⟨text, rfl⟩ : ∃ rest, text = d :: rest := List.head?_eq_some_iff.mp hd
    -- the alternatives in their order
    by_cases hstarts : StartsHexadecimal (d :: text)
    · obtain ⟨x, e, rest, htext, hx, he⟩ := hstarts
      rw [htext, ← List.takeWhile_append_dropWhile (p := isDigitIn 16) (l := e :: rest)]
      refine ⟨_, .hexadecimal hx ?_ (isRun_takeWhile 16 _)⟩
      rw [List.takeWhile_cons_of_pos he]
      exact List.cons_ne_nil e _
    · by_cases hzero : d = '0'
      · subst hzero
        rw [← List.takeWhile_append_dropWhile (p := isDigitIn 8) (l := text)] at hstarts ⊢
        exact ⟨_, .octal (isRun_takeWhile 8 _) hstarts⟩
      · have hhead : (d :: text).takeWhile (isDigitIn 10) =
            d :: text.takeWhile (isDigitIn 10) :=
          List.takeWhile_cons_of_pos ((isDigitIn_ten d).trans hdigit)
        rw [← List.takeWhile_append_dropWhile (p := isDigitIn 10) (l := d :: text)]
        refine ⟨_, .decimal ?_ ?_ (isRun_takeWhile 10 _)⟩
        · rw [hhead]
          exact List.cons_ne_nil d _
        · rw [hhead]
          exact fun h => hzero (Option.some.inj h)

/-! ## Reading numerals -/

section

variable {digits rest text : List Char} {radix : ℕ} {x : Char}

theorem readPrefixedHexadecimal_cons (hx : x = 'x' ∨ x = 'X') (text : List Char) :
    readPrefixedHexadecimal ('0' :: x :: text) =
      (readNumber 16 text).map fun (n, length) => (n, length + 2) := by
  rcases hx with rfl | rfl <;> rfl

/-- Where no hexadecimal digit stands behind the prefix, nothing hexadecimal is read. -/
theorem readPrefixedHexadecimal_eq_none (h : ¬ CNumeral.StartsHexadecimal text) :
    readPrefixedHexadecimal text = none := by
  have hnone {x : Char} {rest : List Char} (hx : x = 'x' ∨ x = 'X')
      (htext : text = '0' :: x :: rest) :
      ((readNumber 16 rest).map fun read => (read.1, read.2 + 2)) = none := by
    have hempty : rest.takeWhile (isDigitIn 16) = [] := by
      cases rest with
      | nil => rfl
      | cons d rest =>
        refine List.takeWhile_cons_of_neg fun hd => h ⟨x, d, rest, htext, hx, hd⟩
    rw [readNumber, Scanner.run, hempty]
    rfl
  unfold readPrefixedHexadecimal
  split
  · exact hnone (.inl rfl) rfl
  · exact hnone (.inr rfl) rfl
  · rfl

theorem boundedValue_of_le (hradix : 0 < radix) (h : digitsValue radix digits ≤ largest) :
    boundedValue radix digits = some (digitsValue radix digits) := by
  rw [boundedValue_eq hradix, bounded_of_le h]

theorem boundedValue_of_gt (hradix : 0 < radix) (h : ¬ digitsValue radix digits ≤ largest) :
    boundedValue radix digits = none := by
  rw [boundedValue_eq hradix, bounded_of_gt h]

/-- Behind a zero, octal digits are read. -/
theorem readCInteger_zero (hother : readPrefixedHexadecimal ('0' :: text) = none)
    {digits rest : List Char} (htext : text = digits ++ rest) (hrun : IsRun 8 digits rest) :
    readCInteger ('0' :: text) = (boundedValue 8 digits).map (·, digits.length + 1) := by
  rw [readCInteger, hother]
  simp only [htext, hrun.run_eq]

/-- What does not begin with a zero is read as decimal. -/
theorem readCInteger_of_ne_zero (h : text.head? ≠ some '0') :
    readCInteger text = readNumber 10 text := by
  have hother : ¬ CNumeral.StartsHexadecimal text := by
    rintro ⟨x, d, rest, rfl, -⟩
    exact h rfl
  rw [readCInteger, readPrefixedHexadecimal_eq_none hother]
  rintro rest rfl
  exact h rfl

end

/-- What is read of a text with a numeral in front. Of a hexadecimal one that is too large it is the
first `0`. -/
theorem CNumeral.Heads.readCInteger_eq {n : CNumeral} {text : List Char} (h : n.Heads text) :
    readCInteger text =
      if n.value ≤ largest then some (n.value, n.written.length)
      else if n.radix = 16 then some (0, 1) else none := by
  cases h with
  | @hexadecimal x digits rest hx hne hrun =>
    have hread : readPrefixedHexadecimal ('0' :: x :: (digits ++ rest)) =
        (boundedValue 16 digits).map (·, digits.length + 2) := by
      rw [readPrefixedHexadecimal_cons hx, hrun.readNumber_eq hne, Option.map_map]
      rfl
    by_cases hle : digitsValue 16 digits ≤ largest
    · rw [boundedValue_of_le (by decide) hle] at hread
      rw [readCInteger, hread]
      exact (if_pos hle).symm
    · -- the next alternative finds no octal digit behind the zero
      rw [boundedValue_of_gt (by decide) hle] at hread
      have hrun' : IsRun 8 [] (x :: (digits ++ rest)) := by
        refine ⟨fun c hc => absurd hc List.not_mem_nil, fun c hc => ?_⟩
        cases hc
        rcases hx with rfl | rfl <;> rfl
      rw [readCInteger_zero hread rfl hrun']
      exact (if_neg hle).symm
  | @octal digits rest hrun hother =>
    -- no hexadecimal numeral is in front, so that the first alternative reads nothing
    rw [readCInteger_zero (readPrefixedHexadecimal_eq_none hother) rfl hrun]
    by_cases hle : digitsValue 8 digits ≤ largest
    · rw [boundedValue_of_le (by decide) hle]
      exact (if_pos hle).symm
    · rw [boundedValue_of_gt (by decide) hle]
      exact (if_neg hle).symm
  | @decimal digits rest hne hzero hrun =>
    -- neither alternative with a zero in front applies
    have hhead : (digits ++ rest).head? ≠ some '0' := by
      obtain ⟨d, digits, rfl⟩ := List.exists_cons_of_ne_nil hne
      exact hzero
    rw [readCInteger_of_ne_zero hhead, hrun.readNumber_eq hne]
    by_cases hle : digitsValue 10 digits ≤ largest
    · rw [boundedValue_of_le (by decide) hle]
      exact (if_pos hle).symm
    · rw [boundedValue_of_gt (by decide) hle]
      exact (if_neg hle).symm

/-- Where there is no digit, nothing is read. -/
theorem readCInteger_eq_none {text : List Char} (h : ∀ d ∈ text.head?, d.isDigit = false) :
    readCInteger text = none := by
  have hzero : text.head? ≠ some '0' := fun hzero => absurd (h '0' hzero) (by decide)
  have hempty : text.takeWhile (isDigitIn 10) = [] := by
    cases text with
    | nil => rfl
    | cons d text =>
      refine List.takeWhile_cons_of_neg ?_
      rw [isDigitIn_ten, h d rfl]
      exact Bool.false_ne_true
  rw [readCInteger_of_ne_zero hzero, readNumber, Scanner.run, hempty]
  rfl

end Text

/-! ## The parser -/

section

open Text

variable {C ρ : Type} [TextCursor C]

/-- What is promised where a text begins with a numeral: the number and the cursor behind all of the
numeral, or a failure if the number is too large. -/
def Text.CNumeral.outcome (n : CNumeral) (c : C) : Outcome C ℕ :=
  if n.value ≤ largest then .success n.value (Cursor.next^[n.written.length] c)
  else .noSuccess (.failure "integer" (Cursor.location c))

variable [Cursor.Lawful C] [Cursor.Listed C] [TextCursor.Exact C]

/-- The parser for integers as C writes them comes to what is promised
* where no digit stands, which is a failure;
* behind exactly those numerals, of which there is one wherever a digit stands, that are not
  hexadecimal and too large. Of the others it takes the `0` for the number. -/
theorem Parser.run_cInteger (env : Environment TextPrimitive ρ) (fuel : ℕ)
    (ctx : Context TextPrimitive ρ) (c : C) (t : Session C ρ) :
    ((∀ d ∈ (TextCursor.rest c).head?, d.isDigit = false) →
      (scan cInteger).run env (fuel + 1) ctx c t =
        (.ok (.noSuccess (.failure "integer" (Cursor.location c))), t)) ∧
    ((∃ d ∈ (TextCursor.rest c).head?, d.isDigit = true) →
      ∃ n : CNumeral, n.Heads (TextCursor.rest c)) ∧
    ∀ n : CNumeral, n.Heads (TextCursor.rest c) →
      ((scan cInteger).run env (fuel + 1) ctx c t = (.ok (n.outcome c), t) ↔
        (n.radix = 16 → n.value ≤ largest)) ∧
      (n.radix = 16 → largest < n.value → (scan cInteger).run env (fuel + 1) ctx c t =
        (.ok (.success 0 (Cursor.next c)), t)) := by
  refine ⟨fun hnone => ?_, CNumeral.exists_heads_iff.mpr, fun n hn => ?_⟩
  · exact run_scan (Recognizer.scan_of_none (readCInteger_eq_none hnone)) env fuel ctx t
  obtain ⟨rest, hrest, hbytes⟩ := hn.exists_append
  have hread : cInteger.scan (TextCursor.rest c) = _ := hn.readCInteger_eq
  by_cases hle : n.value ≤ largest
  · rw [if_pos hle, ← hbytes] at hread
    have hrun := run_scan (Recognizer.scan_of_some hrest hread) env fuel ctx t
    refine ⟨iff_of_true ?_ fun _ => hle, fun _ hlt => absurd hle (Nat.not_le.mpr hlt)⟩
    rw [hrun, CNumeral.outcome, if_pos hle]
  · rw [if_neg hle] at hread
    by_cases hradix : n.radix = 16
    · -- too large: only the zero in front is read, as an octal numeral
      obtain ⟨text, htext⟩ := hn.exists_eq_zero_cons hradix
      rw [if_pos hradix] at hread
      have hzero : TextCursor.rest c = ['0'] ++ text := htext
      have hrun := run_scan (Recognizer.scan_of_some hzero hread) env fuel ctx t
      refine ⟨iff_of_false ?_ fun h => hle (h hradix), fun _ _ => hrun⟩
      rw [hrun, CNumeral.outcome, if_neg hle]
      intro heq
      cases (Prod.mk.inj heq).1
    · rw [if_neg hradix] at hread
      have hrun := run_scan (Recognizer.scan_of_none hread) env fuel ctx t
      refine ⟨iff_of_true ?_ fun h => absurd h hradix, fun h => absurd h hradix⟩
      rw [hrun, CNumeral.outcome, if_neg hle]
      rfl

end

/-! ### Sixteen hexadecimal digits -/

namespace Hexadecimal

/-- Nothing has a name. -/
def names : Environment TextPrimitive Unit :=
  ⟨fun _ => .dropped, fun _ => .abort "nothing"⟩

/-- `0x`, digits, and a semicolon. -/
def textOf (digits : List Char) : List Char :=
  '0' :: 'x' :: (digits ++ [';'])

def cursorOf (digits : List Char) : TextReader :=
  .ofChars (textOf digits) (.lineColumn {}) ⟨0⟩

/-- The greatest number that is read. -/
def longest : List Char :=
  '7' :: List.replicate 15 'f'

/-- Digits of a number that is not read any more. -/
def tooLong : List Char :=
  List.replicate 16 'f'

theorem heads {digits : List Char} (hne : digits ≠ [])
    (hdigits : digits.all (Text.isDigitIn 16) = true) :
    Text.CNumeral.Heads ⟨16, ['0', 'x'], digits⟩ (TextCursor.rest (cursorOf digits)) := by
  refine .hexadecimal (.inl rfl) hne ⟨List.all_eq_true.mp hdigits, fun c hc => ?_⟩
  cases hc
  rfl

end Hexadecimal

open Hexadecimal in
theorem Parser.run_cInteger_longest :
    (scan Text.cInteger).run names 1 {} (cursorOf longest) {} =
      (.ok (.success Text.largest ⟨textOf longest, [';'], 18, .lineColumn ⟨1, 18⟩, ⟨0⟩⟩), {}) := by
  have hheads : Text.CNumeral.Heads ⟨16, ['0', 'x'], longest⟩ _ :=
    heads (List.cons_ne_nil _ _) rfl
  have hrun := (run_cInteger names 0 {} (cursorOf longest) {}).2.2 _ hheads
  exact hrun.1.mpr fun _ => by decide

open Hexadecimal in
/-- Sixteen digits `f` denote a number that is too large, and yet the parser succeeds. -/
theorem Parser.run_cInteger_tooLong :
    Text.CNumeral.Heads ⟨16, ['0', 'x'], tooLong⟩ (TextCursor.rest (cursorOf tooLong)) ∧
    Text.CNumeral.outcome ⟨16, ['0', 'x'], tooLong⟩ (cursorOf tooLong) =
      .noSuccess (.failure "integer" (.lineColumn ⟨1, 0⟩)) ∧
    ∀ (env : Environment TextPrimitive Unit) (t : Session TextReader Unit),
      (scan Text.cInteger).run env 1 {} (cursorOf tooLong) t =
        (.ok (.success 0 ⟨textOf tooLong, 'x' :: (tooLong ++ [';']), 1, .lineColumn ⟨1, 1⟩, ⟨0⟩⟩),
          t) := by
  refine ⟨heads (List.cons_ne_nil _ _) rfl, rfl, fun env t => ?_⟩
  exact run_scan rfl env 0 {} t

end Parsing
