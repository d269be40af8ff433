import Parsing.Proofs.Recognizer.Repetition
import Parsing.Proofs.Text.Lexeme
import Parsing.Proofs.Text.Radix

/-!
# Texts behind their lengths

A text may be written behind the number of its characters and a colon, whatever stands in the text
and behind it. It is read by a parser whose second part is made from what the first one reads
(`Parser.lengthPrefixed`). That is undone by reading (`Parser.settles_lengthPrefixed`), and if there
are fewer characters than the number says, reading fails at the end, where the next one is missing.
-/

namespace Parsing

open Cursor

/-! ## A fixed number of repetitions -/

section Times

open Recognizer

variable {π : Type → Type} {C T ρ α : Type} [Cursor C T]

/-- A mapped recognizer gives the image of an outcome. -/
theorem Effect.Gives.map {σ β : Type} (f : α → β) {p : Recognizer (Effect σ) C α} {c : C}
    {o : Outcome C α} (h : (p c).Gives o) : (Recognizer.map f p c).Gives (o.map f) :=
  fun s => congrArg Prod.fst (run_map_iff.mpr ⟨o, Prod.ext (h s) rfl, rfl⟩)

variable [Primitive π] [Primitive.Runs π C] {env : Environment π ρ} {p : Parser π ρ α} {n : ℕ}
  {c d : C} {a : α} {o : Outcome C (List α)}

namespace Parser

/-- Whether running an expression a number of times comes to an outcome once every run may be deep
enough. -/
def SettlesTimes (env : Environment π ρ) (p : Parser π ρ α) (n : ℕ) (c : C)
    (o : Outcome C (List α)) : Prop :=
  ∃ k, ∀ m, k ≤ m → ∀ build scope,
    (times (Parser.answer env m build scope .same p) n c).Gives o

theorem settlesTimes_zero (env : Environment π ρ) (p : Parser π ρ α) (c : C) :
    p.SettlesTimes env 0 c (.success [] c) :=
  ⟨0, fun _ _ _ _ => .pure _⟩

/-- What the other times come to is passed on with the first value in front. -/
theorem SettlesTimes.succ (h : p.SettlesTimes env n d o) (hp : p.Settles env c (.success a d)) :
    p.SettlesTimes env (n + 1) c (o.map (List.cons a)) := by
  obtain ⟨k, hk⟩ := exists_le_and hp.answer h
  exact ⟨k, fun m hm build scope =>
    .branch_success ((hk m hm).1 build scope .same) (.map _ ((hk m hm).2 build scope))⟩

/-- A loop settles on the failure of its first round. -/
theorem settlesTimes_of_failure {r : NoSuccess} (hr : r.isFailure = true)
    (hp : p.Settles env c (.noSuccess r)) : p.SettlesTimes env (n + 1) c (.noSuccess r) := by
  obtain ⟨k, hk⟩ := hp.answer
  exact ⟨k, fun m hm build scope => .chain_failure (hk m hm build scope .same) hr⟩

/-- A repetition of a fixed number of times settles as its rounds do. -/
theorem SettlesTimes.repeated (h : p.SettlesTimes env n c o) :
    (repeated (.exactly n) p).Settles env c o := by
  obtain ⟨k, hk⟩ := h
  refine settles_of_step rfl ⟨k, fun m hm ctx => ?_⟩
  change (Recognizer.repeated m (.exactly n)
    (Parser.answer env m ctx.build ctx.scope .same p) c).Gives o
  rw [repeated_exactly]
  exact hk m hm _ _

end Parser

end Times

/-! ## Characters behind a number -/

namespace Parser

variable {C ρ : Type}

/-- As many characters as a number and a colon in front of them say. -/
def lengthPrefixed : Parser TextPrimitive ρ (List Char) :=
  .chain (skip (scan Text.decimal) (char ':')) fun n => .repeated (.exactly n) anyChar

variable [TextCursor C] [Cursor.Lawful C] [Cursor.Listed C] [TextCursor.Exact C]
  {env : Environment TextPrimitive ρ} {c : C}

/-- What so many characters come to: they are read, or one is missing at the end. -/
def characters (n : ℕ) (c : C) : Outcome C (List Char) :=
  if n ≤ (TextCursor.rest c).length then
    .success ((TextCursor.rest c).take n) (Cursor.next^[n] c)
  else
    .noSuccess (.failure "any character"
      (Cursor.location (Cursor.next^[(TextCursor.rest c).length] c)))

/-- Any number of characters is read, or the end is met. -/
theorem settlesTimes_anyChar (n : ℕ) (c : C) : anyChar.SettlesTimes env n c (characters n c) := by
  induction n generalizing c with
  | zero => exact settlesTimes_zero env anyChar c
  | succ n ih =>
    rcases hrest : TextCursor.rest c with _ | ⟨t, rest⟩
    · rw [characters, hrest]
      exact settlesTimes_of_failure rfl (settles_anyChar_end hrest)
    · have hnext : TextCursor.rest (Cursor.next c) = rest := by
        rw [TextCursor.rest_next, hrest, List.tail_cons]
      have hsucc := (ih (Cursor.next c)).succ (settles_anyChar hrest)
      have hcharacters :
          characters (n + 1) c = (characters n (Cursor.next c)).map (List.cons t) := by
        rw [characters, characters, hrest, hnext]
        simp only [List.length_cons, Nat.add_le_add_iff_right]
        split <;> rfl
      rw [hcharacters]
      exact hsucc

open Text

variable {digits text : List Char}

/-- The digits in front of a colon are a run. -/
theorem isRun_colon (h : ∀ t ∈ digits, isDigitIn 10 t = true) (text : List Char) :
    IsRun 10 digits (':' :: text) where
  isDigit := h
  maximal t ht := by
    cases ht
    rfl

theorem rest_behind_colon (h : TextCursor.rest c = digits ++ ':' :: text) :
    TextCursor.rest (Cursor.next^[digits.length + 1] c) = text := by
  rw [TextCursor.rest_iterate_next, h, List.append_cons]
  exact List.drop_left' (by simp)

/-- Behind a number and a colon so many characters are read. A number that is too large is none. -/
theorem settles_lengthPrefixed_of_digits (env : Environment TextPrimitive ρ)
    (hdigits : ∀ t ∈ digits, isDigitIn 10 t = true)
    (hne : digits ≠ []) (hrest : TextCursor.rest c = digits ++ ':' :: text) :
    lengthPrefixed.Settles env c
      (if digitsValue 10 digits < 2 ^ 63 then
        characters (digitsValue 10 digits) (Cursor.next^[digits.length + 1] c)
      else .noSuccess (.failure "decimal" (Cursor.location c))) := by
  have hscan := ScansRadix.decimal.scan_append (isRun_colon hdigits text)
  by_cases hvalue : digitsValue 10 digits < 2 ^ 63
  · rw [if_pos ⟨hne, hvalue⟩] at hscan
    have hcolon : TextCursor.rest (Cursor.next^[digits.length] c) = ':' :: text := by
      rw [TextCursor.rest_iterate_next, hrest, List.drop_left]
    rw [if_pos hvalue, Function.iterate_succ_apply']
    exact settles_chain (settles_zip _ (settles_scan hrest hscan) (settles_char hcolon))
      (settlesTimes_anyChar _ _).repeated
  · rw [if_neg fun h => hvalue h.2, ← hrest] at hscan
    rw [if_neg hvalue]
    exact settles_chain_of_failure rfl
      (settles_zip_of_failure _ rfl (settles_primitive (Recognizer.scan_of_none hscan)))

/-- Any text is read back that stands behind the number of its characters and a colon, whatever is
behind it, if there are fewer than `2 ^ 63` of them, which is so of every text that fits into a
memory with addresses of 64 bits; greater numbers are not read. And where fewer characters stand
behind a number and a colon than the number says, reading fails at the end. -/
theorem settles_lengthPrefixed (env : Environment TextPrimitive ρ) :
    (∀ (s tail : List Char) (c : C),
      TextCursor.rest c = Nat.toDigits 10 s.length ++ ':' :: (s ++ tail) →
        (s.length < 2 ^ 63 → ∃ d, lengthPrefixed.Settles env c (.success s d) ∧
          TextCursor.rest d = tail ∧
          d = Cursor.next^[(Nat.toDigits 10 s.length).length + 1 + s.length] c) ∧
        (2 ^ 63 ≤ s.length →
          lengthPrefixed.Settles env c (.noSuccess (.failure "decimal" (Cursor.location c))))) ∧
    ∀ (digits : List Char) (values : List ℕ) (s : List Char) (c : C), digits ≠ [] →
      Spells 10 digits values → Nat.ofDigits 10 values.reverse < 2 ^ 63 →
        s.length < Nat.ofDigits 10 values.reverse → TextCursor.rest c = digits ++ ':' :: s →
          ∃ d, TextCursor.rest d = [] ∧ d = Cursor.next^[(TextCursor.rest c).length] c ∧
            lengthPrefixed.Settles env c
              (.noSuccess (.failure "any character" (Cursor.location d))) := by
  constructor
  · -- the digits are those of the length, so that as many characters are read
    intro s tail c hrest
    have hdigits : ∀ t ∈ Nat.toDigits 10 s.length, isDigitIn 10 t = true := fun t ht =>
      isDigitIn_of_mem_toDigits (by decide) (by decide) ht
    have hsettles := settles_lengthPrefixed_of_digits env hdigits Nat.toDigits_ne_nil hrest
    rw [digitsValue_toDigits (by decide) (by decide)] at hsettles
    constructor
    · intro hlt
      have htext := rest_behind_colon hrest
      have hle : s.length ≤ (s ++ tail).length := by simp
      rw [if_pos hlt, characters, htext, if_pos hle, List.take_left, ← Function.iterate_add_apply,
        Nat.add_comm s.length] at hsettles
      refine ⟨_, hsettles, ?_, rfl⟩
      rw [Nat.add_comm, Function.iterate_add_apply, TextCursor.rest_iterate_next, htext,
        List.drop_left]
    · intro hge
      rwa [if_neg (Nat.not_lt_of_le hge)] at hsettles
  · -- any digits of a greater number lead to the end of the text
    intro digits values s c hne hspells hvalue hshort hrest
    have hdigits := hspells.isDigitIn (by decide)
    have hsettles := settles_lengthPrefixed_of_digits env hdigits hne hrest
    have hlength : (TextCursor.rest c).length = s.length + (digits.length + 1) := by
      rw [hrest, List.length_append, List.length_cons]
      omega
    rw [← hspells.digitsValue_eq (by decide)] at hvalue hshort
    rw [if_pos hvalue, characters, rest_behind_colon hrest, if_neg (Nat.not_le_of_lt hshort),
      ← Function.iterate_add_apply, ← hlength] at hsettles
    refine ⟨_, ?_, rfl, hsettles⟩
    rw [TextCursor.rest_iterate_next, List.drop_length]

/-! ### A text that looks like a length -/

open Exclamations (rules) in
/-- The text consists of a number, a colon and a letter itself. Then fewer letters stand behind a
number with zeros in front. -/
theorem settles_lengthPrefixed_nested :
    lengthPrefixed.Settles rules (TextReader.ofChars "3:2:éx".toList (.offset 0) ⟨0⟩)
      (.success "2:é".toList ⟨"3:2:éx".toList, ['x'], 6, .offset 5, ⟨0⟩⟩) ∧
    lengthPrefixed.Settles rules (TextReader.ofChars "007:é:".toList (.offset 0) ⟨0⟩)
      (.noSuccess (.failure "any character" (.offset 6))) := by
  obtain ⟨hread, hshort⟩ := settles_lengthPrefixed (C := TextReader) rules
  constructor
  · obtain ⟨d, hsettles, -, rfl⟩ := (hread "2:é".toList ['x']
      (.ofChars "3:2:éx".toList (.offset 0) ⟨0⟩) rfl).1 (by decide)
    exact hsettles
  · have hspells : Spells 10 ['0', '0', '7'] [0, 0, 7] :=
      .cons ⟨by decide, rfl⟩ (.cons ⟨by decide, rfl⟩ (.cons ⟨by decide, rfl⟩ .nil))
    obtain ⟨d, -, rfl, hsettles⟩ := hshort ['0', '0', '7'] [0, 0, 7] ['é', ':']
      (.ofChars "007:é:".toList (.offset 0) ⟨0⟩) (by simp) hspells (by decide) (by decide) rfl
    exact hsettles

end Parser

end Parsing
