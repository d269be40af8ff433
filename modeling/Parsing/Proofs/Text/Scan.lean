import Parsing.Proofs.Text.Agreement

/-!
# Runs of scanners

The parser of a scanner comes to what the scanner reads off the text that is left
(`Parser.run_scan`). If the scanner took whole characters, the cursor behind is as many steps ahead.
-/

namespace Parsing

section

variable {C α ρ : Type} [TextCursor C] {s : Scanner α} {c : C} {a : α}

/-- Where nothing is scanned, a scanner fails. -/
theorem Recognizer.scan_of_none (h : s.scan (TextCursor.rest c) = none) :
    Recognizer.scan (m := Except Halt) s c =
      .ok (.noSuccess (.failure s.expected (Cursor.location c))) := by
  rw [Recognizer.scan, h]
  rfl

/-- Running a scanner changes nothing of what is remembered. -/
theorem Parser.run_scan {o : Outcome C α} (h : Recognizer.scan (m := Except Halt) s c = .ok o)
    (env : Environment TextPrimitive ρ) (fuel : ℕ) (ctx : Context TextPrimitive ρ)
    (t : Session C ρ) : (Parser.scan s).run env (fuel + 1) ctx c t = (.ok o, t) := by
  change (ofExcept (Recognizer.scan s c) : Effect (Session C ρ) (Outcome C α)).run t = _
  rw [h]
  rfl

variable [Cursor.Lawful C] [Cursor.Listed C] [TextCursor.Exact C]

/-- Behind a number of characters, the text without them is left. -/
theorem TextCursor.rest_iterate_next (c : C) (n : ℕ) :
    TextCursor.rest (Cursor.next^[n] c) = (TextCursor.rest c).drop n := by
  rw [TextCursor.Exact.rest_eq, TextCursor.Exact.rest_eq, Cursor.tokens_iterate_next]

theorem TextCursor.rest_next (c : C) :
    TextCursor.rest (Cursor.next c) = (TextCursor.rest c).tail := by
  rw [TextCursor.Exact.rest_eq, TextCursor.Exact.rest_eq, Cursor.Listed.tokens_next]

/-- As many steps are left as there are characters. -/
theorem TextCursor.length_rest (c : C) :
    (TextCursor.rest c).length = Cursor.Lawful.remaining c := by
  rw [TextCursor.Exact.rest_eq, Cursor.Listed.length_tokens]

/-- Past a character the position is greater. -/
theorem TextCursor.position_lt_position_next {t : Char} {rest : List Char}
    (h : TextCursor.rest c = t :: rest) : Cursor.position c < Cursor.position (Cursor.next c) := by
  apply Cursor.Lawful.position_lt_position_next
  rw [← TextCursor.length_rest, h]
  exact Nat.succ_ne_zero _

theorem TextCursor.isEmpty_of_rest_eq_nil (h : TextCursor.rest c = []) :
    Cursor.isEmpty c = true := by
  rw [Cursor.Listed.isEmpty_eq, ← TextCursor.Exact.rest_eq, h, List.isEmpty_nil]

/-- The end of a text is as many steps ahead as there are characters left. -/
theorem TextCursor.eq_iterate_next_of_rest_eq_nil {d : C} (hd : Cursor.After c d)
    (h : TextCursor.rest d = []) : d = Cursor.next^[(TextCursor.rest c).length] c := by
  obtain ⟨n, rfl⟩ := hd
  rw [TextCursor.rest_iterate_next, List.drop_eq_nil_iff] at h
  rw [Cursor.iterate_next_eq_iff, ← TextCursor.length_rest, Nat.min_eq_right h, Nat.min_self]

/-- What is scanned is moved behind. -/
theorem Recognizer.scan_of_some {read rest : List Char} (hrest : TextCursor.rest c = read ++ rest)
    (h : s.scan (TextCursor.rest c) = some (a, byteLength read)) :
    Recognizer.scan (m := Except Halt) s c = .ok (.success a (Cursor.next^[read.length] c)) := by
  simp only [Recognizer.scan, h, TextCursor.Exact.advanceBytes_append hrest]
  rfl

end

end Parsing
