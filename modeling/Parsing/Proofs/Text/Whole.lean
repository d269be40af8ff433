import Parsing.Parser.Text
import Parsing.Proofs.Parser.Grounded
import Parsing.Text.Engine

/-!
# Scanners read whole characters

What a scanner takes off a text is to be a number of bytes after which a character ends
(`Scanner.Whole`); then the parser of the scanner comes to an outcome at every cursor
(`TextPrimitive.answers_scan`). All scanners here are of that kind. Escapes are counted in
characters, which is right since all characters in them are ASCII (`whole_readEscape`).
-/

namespace Parsing

/-- Whether a number of bytes is the length of some characters at the front of a text. -/
def WholeBytes (text : List Char) (n : ℕ) : Prop :=
  ∃ read, read <+: text ∧ byteLength read = n

/-- A prefix has bytes of whole characters. -/
theorem wholeBytes_of_prefix {read text : List Char} (h : read <+: text) :
    WholeBytes text (byteLength read) :=
  ⟨read, h, rfl⟩

/-- One more character in front is whole. -/
theorem WholeBytes.cons {text : List Char} {n : ℕ} (h : WholeBytes text n) (c : Char) :
    WholeBytes (c :: text) (c.utf8Size + n) := by
  obtain ⟨read, hread, rfl⟩ := h
  exact ⟨c :: read, List.cons_prefix_cons.mpr ⟨rfl, hread⟩, byteLength_cons c read⟩

/-- Scanners that take whole characters. -/
class Scanner.Whole {α : Type} (s : Scanner α) : Prop where
  wholeBytes {text : List Char} {a : α} {n : ℕ} : s.scan text = some (a, n) → WholeBytes text n

/-- What such a scanner makes a parser of comes to an outcome everywhere. -/
theorem TextPrimitive.answers_scan {C α : Type} [TextCursor C] [TextCursor.Lawful C] (s : Scanner α)
    [s.Whole] : Primitive.Answers C (TextPrimitive.scan s) := by
  intro c
  change ∃ o, Recognizer.scan (m := Except Halt) s c = .ok o
  unfold Recognizer.scan
  rcases hscan : s.scan (TextCursor.rest c) with _ | ⟨a, n⟩
  · exact ⟨_, rfl⟩
  · obtain ⟨read, ⟨rest, hrest⟩, rfl⟩ := Scanner.Whole.wholeBytes hscan
    have hmove := TextCursor.Lawful.isSome_advanceBytes hrest.symm
    obtain ⟨d, hd⟩ := Option.isSome_iff_exists.mp hmove
    simp only [hd]
    exact ⟨_, rfl⟩

instance {α β : Type} (f : α → β) (s : Scanner α) [s.Whole] : (s.map f).Whole where
  wholeBytes h := by
    obtain ⟨⟨a, n⟩, hscan, heq⟩ := Option.map_eq_some_iff.mp h
    cases heq
    exact Scanner.Whole.wholeBytes hscan

instance (expected : String) : (Scanner.literal expected).Whole where
  wholeBytes {text _ _} h := by
    change (if expected.toList.isPrefixOf text then _ else _) = _ at h
    split at h
    · cases h
      exact wholeBytes_of_prefix (List.isPrefixOf_iff_prefix.mp ‹_›)
    · cases h

namespace Text

/-- A run has bytes of whole characters. -/
theorem wholeBytes_run (accepts : Char → Bool) (text : List Char) :
    WholeBytes text (Scanner.run accepts text).2 :=
  wholeBytes_of_prefix (List.takeWhile_prefix accepts)

instance : spaces.Whole where
  wholeBytes h := by
    cases h
    exact wholeBytes_run _ _

/-! ## Identifiers -/

/-- A word has bytes of whole characters. -/
theorem wholeBytes_readWord {starts goesOn : Char → Bool} {text : List Char} {word : String}
    {n : ℕ} (h : readWord starts goesOn text = some (word, n)) : WholeBytes text n := by
  unfold readWord at h
  split at h
  · cases h
  · split at h
    · cases h
      exact wholeBytes_of_prefix (List.cons_prefix_cons.mpr ⟨rfl, List.takeWhile_prefix _⟩)
    · cases h

instance : identifier.Whole := ⟨wholeBytes_readWord⟩

instance : javaIdentifier.Whole := ⟨wholeBytes_readWord⟩

/-- A text up to a character that is in it, that character included. -/
theorem takeWhile_append_singleton_prefix {c : Char} {text : List Char} (h : c ∈ text) :
    text.takeWhile (· != c) ++ [c] <+: text := by
  induction text with
  | nil => cases h
  | cons d text ih =>
    by_cases hd : d = c
    · subst hd
      simp
    · rw [List.takeWhile_cons_of_pos (by simpa using hd), List.cons_append]
      exact List.cons_prefix_cons.mpr ⟨rfl, ih ((List.mem_cons.mp h).resolve_left (Ne.symm hd))⟩

instance : kotlinIdentifier.Whole where
  wholeBytes {text word n} h := by
    change readKotlinIdentifier text = _ at h
    unfold readKotlinIdentifier at h
    split at h
    · cases h
    · split at h
      · split at h
        · rename_i hc htick
          cases h
          cases hc
          refine wholeBytes_of_prefix (List.cons_prefix_cons.mpr ⟨rfl, ?_⟩)
          exact takeWhile_append_singleton_prefix (List.contains_iff_mem.mp htick)
        · cases h
      · exact wholeBytes_readWord h

/-! ## Numbers -/

/-- A number has bytes of whole characters. -/
theorem wholeBytes_readNumber {radix : ℕ} {text : List Char} {a n : ℕ}
    (h : readNumber radix text = some (a, n)) : WholeBytes text n := by
  unfold readNumber at h
  change (if _ then none else (boundedValue radix _).map (·, (Scanner.run _ text).2)) = _ at h
  split at h
  · cases h
  · obtain ⟨b, -, heq⟩ := Option.map_eq_some_iff.mp h
    cases heq
    exact wholeBytes_run _ _

instance : decimal.Whole := ⟨wholeBytes_readNumber⟩

instance : octal.Whole := ⟨wholeBytes_readNumber⟩

instance : hexadecimal.Whole := ⟨wholeBytes_readNumber⟩

theorem wholeBytes_prefixed {x : Char} (hx : x.utf8Size = 1) {text : List Char} {a n : ℕ}
    (h : ((readNumber 16 text).map fun (n, length) => (n, length + 2)) = some (a, n)) :
    WholeBytes ('0' :: x :: text) n := by
  obtain ⟨⟨b, m⟩, hread, heq⟩ := Option.map_eq_some_iff.mp h
  cases heq
  have hwhole := ((wholeBytes_readNumber hread).cons x).cons '0'
  rwa [hx, show '0'.utf8Size + (1 + m) = m + 2 by rw [show '0'.utf8Size = 1 from rfl]; omega]
    at hwhole

theorem wholeBytes_readPrefixedHexadecimal {text : List Char} {a n : ℕ}
    (h : readPrefixedHexadecimal text = some (a, n)) : WholeBytes text n := by
  unfold readPrefixedHexadecimal at h
  split at h
  · exact wholeBytes_prefixed rfl h
  · exact wholeBytes_prefixed rfl h
  · cases h

instance : cInteger.Whole where
  wholeBytes {text a n} h := by
    change readCInteger text = _ at h
    unfold readCInteger at h
    split at h
    · cases h
      exact wholeBytes_readPrefixedHexadecimal ‹_›
    · split at h
      · rename_i text _
        change (boundedValue 8 _).map (·, (Scanner.run (isDigitIn 8) text).2 + 1) = _ at h
        obtain ⟨b, -, heq⟩ := Option.map_eq_some_iff.mp h
        cases heq
        rw [Nat.add_comm]
        exact (wholeBytes_run (isDigitIn 8) text).cons '0'
      · exact wholeBytes_readNumber h

/-- A sign and what is left behind it are the text. -/
theorem splitSign_append (text : List Char) : (splitSign text).1 ++ (splitSign text).2 = text := by
  unfold splitSign
  split
  · rfl
  · split <;> rfl

/-- Digits and what is left behind them are the text. -/
theorem splitDigits_append (text : List Char) :
    (splitDigits text).1 ++ (splitDigits text).2 = text :=
  List.takeWhile_append_dropWhile

/-- A fraction and what is left behind it are the text. -/
theorem splitFraction_append (text : List Char) :
    (if (splitFraction text).1.isEmpty then [] else '.' :: (splitFraction text).1) ++
      (splitFraction text).2 = text := by
  cases text with
  | nil => rfl
  | cons c text =>
    have happend := splitDigits_append text
    rcases hsplit : splitDigits text with ⟨digits, rest⟩
    rw [hsplit] at happend
    simp only [splitFraction, hsplit]
    by_cases hc : (c = '.' && !digits.isEmpty) = true
    · rw [if_pos hc]
      simp only [Bool.and_eq_true, decide_eq_true_eq, Bool.not_eq_true'] at hc
      rw [if_neg (by simp [hc.2]), hc.1, List.cons_append, happend]
    · rw [if_neg hc]
      rfl

/-- An exponent and what is left behind it are the text. -/
theorem splitExponent_append (text : List Char) :
    ((splitExponent text).1.map ExponentPart.text).getD [] ++ (splitExponent text).2 = text := by
  cases text with
  | nil => rfl
  | cons c text =>
    have hsign := splitSign_append text
    rcases hsplit : splitSign text with ⟨sign, rest⟩
    have hdigits := splitDigits_append rest
    rcases hsplit' : splitDigits rest with ⟨digits, rest'⟩
    rw [hsplit] at hsign
    rw [hsplit'] at hdigits
    simp only [splitExponent, hsplit, hsplit']
    split
    · change c :: (sign ++ digits) ++ rest' = _
      rw [List.cons_append, List.append_assoc, hdigits, hsign]
    · rfl

/-- A numeral is read off the front of a text as it is written. -/
theorem text_prefix_of_read {text : List Char} {n : Numeral} (h : Numeral.read text = some n) :
    n.text <+: text := by
  rcases hsign : splitSign text with ⟨sign, afterSign⟩
  rcases hwhole : splitDigits afterSign with ⟨whole, afterWhole⟩
  rcases hfraction : splitFraction afterWhole with ⟨fraction, afterFraction⟩
  rcases hexponent : splitExponent afterFraction with ⟨exponent, rest⟩
  simp only [Numeral.read, hsign, hwhole, hfraction, hexponent] at h
  split at h
  · cases h
  · cases h
    have hsign' := splitSign_append text
    have hwhole' := splitDigits_append afterSign
    have hfraction' := splitFraction_append afterWhole
    have hexponent' := splitExponent_append afterFraction
    rw [hsign] at hsign'
    rw [hwhole] at hwhole'
    rw [hfraction] at hfraction'
    rw [hexponent] at hexponent'
    refine ⟨rest, ?_⟩
    rw [Numeral.text, List.append_assoc, hexponent', List.append_assoc, hfraction',
      List.append_assoc, hwhole', hsign']

instance : float.Whole where
  wholeBytes h := by
    obtain ⟨numeral, hread, heq⟩ := Option.map_eq_some_iff.mp h
    cases heq
    exact wholeBytes_of_prefix (text_prefix_of_read hread)

/-! ## Quoted strings -/

/-- A digit has one byte. -/
theorem utf8Size_of_isDigitIn {radix : ℕ} {c : Char} (h : isDigitIn radix c = true) :
    c.utf8Size = 1 := by
  refine Char.utf8Size_eq_one_iff.mpr ?_
  -- digits and letters are in three ranges of ASCII
  have hlast {first last : UInt32} (h : first ≤ c.val ∧ c.val ≤ last) (hlast : last ≤ 127) :
      c.val ≤ 127 :=
    UInt32.le_trans h.2 hlast
  have halnum : (c.isDigit || c.isLower || c.isUpper) = true := (Bool.and_eq_true_iff.mp h).1
  rcases Bool.or_eq_true_iff.mp halnum with halnum | hupper
  · rcases Bool.or_eq_true_iff.mp halnum with hdigit | hlower
    · exact hlast (of_decide_eq_true ((Bool.decide_and _ _).trans hdigit)) (by decide)
    · exact hlast (of_decide_eq_true ((Bool.decide_and _ _).trans hlower)) (by decide)
  · exact hlast (of_decide_eq_true hupper) (by decide)

/-- Characters of one byte are counted by bytes. -/
theorem byteLength_of_forall {cs : List Char} (h : ∀ c ∈ cs, c.utf8Size = 1) :
    byteLength cs = cs.length := by
  induction cs with
  | nil => rfl
  | cons c cs ih =>
    rw [byteLength_cons, List.length_cons, h c List.mem_cons_self,
      ih fun d hd => h d (List.mem_cons_of_mem c hd), Nat.add_comm]

/-- Digits take one byte each. -/
theorem byteLength_takeWhile_isDigitIn (radix : ℕ) (text : List Char) :
    byteLength (text.takeWhile (isDigitIn radix)) = (text.takeWhile (isDigitIn radix)).length :=
  byteLength_of_forall fun _ hc =>
    utf8Size_of_isDigitIn (List.all_eq_true.mp List.all_takeWhile _ hc)

/-- A code point is a prefix of characters of one byte each. -/
theorem wholeBytes_readCodePoint {width n : ℕ} {text : List Char} {c : Char}
    (h : readCodePoint width text = some (c, n)) :
    ∃ read, read <+: text ∧ read.length = n ∧ byteLength read = n := by
  unfold readCodePoint at h
  simp only at h
  split at h
  · cases h
    refine ⟨(text.take width).takeWhile (isDigitIn 16), ?_, ‹_›, ?_⟩
    · exact (List.takeWhile_prefix _).trans (List.take_prefix _ _)
    · rw [byteLength_takeWhile_isDigitIn]
      assumption
  · cases h

theorem utf8Size_of_simpleEscape? {c d : Char} (h : simpleEscape? c = some d) : c.utf8Size = 1 := by
  unfold simpleEscape? at h
  split at h
  all_goals first
    | rfl
    | cases h

/-- What follows a backslash is read in whole characters of one byte each. -/
theorem whole_readEscape {text : List Char} {c : Char} {n : ℕ} (h : readEscape text = some (c, n)) :
    ∃ read, read <+: text ∧ read.length = n ∧ byteLength read = n := by
  unfold readEscape at h
  split at h
  · cases h
  · rename_i x text
    have hcode {width : ℕ} (hx : x.utf8Size = 1)
        (h : ((readCodePoint width text).map fun read => (read.1, read.2 + 1)) = some (c, n)) :
        ∃ read, read <+: x :: text ∧ read.length = n ∧ byteLength read = n := by
      obtain ⟨⟨d, m⟩, hread, heq⟩ := Option.map_eq_some_iff.mp h
      cases heq
      obtain ⟨read, hprefix, hlength, hbytes⟩ := wholeBytes_readCodePoint hread
      refine ⟨x :: read, List.cons_prefix_cons.mpr ⟨rfl, hprefix⟩, ?_, ?_⟩
      · rw [List.length_cons, hlength]
      · rw [byteLength_cons, hx, hbytes, Nat.add_comm]
    split at h
    · cases h
      refine ⟨[x], List.cons_prefix_cons.mpr ⟨rfl, List.nil_prefix⟩, rfl, ?_⟩
      rw [byteLength_cons, utf8Size_of_simpleEscape? ‹_›]
      rfl
    · split at h
      · exact hcode (by rw [‹x = 'x'›]; rfl) h
      · split at h
        · exact hcode (by rw [‹x = 'u'›]; rfl) h
        · simp only at h
          split at h
          · cases h
          · cases h
            refine ⟨_, ?_, rfl, byteLength_takeWhile_isDigitIn _ _⟩
            exact (List.takeWhile_prefix _).trans (List.take_prefix _ _)

/-- The items of a string have bytes of whole characters. -/
theorem wholeBytes_readItems {text value : List Char} {n : ℕ}
    (h : readItems text = some (value, n)) : WholeBytes text n := by
  induction text using readItems.induct generalizing value n with
  | case1 =>
    rw [readItems] at h
    cases h
  | case2 text =>
    rw [readItems, if_pos rfl] at h
    cases h
    exact ⟨['"'], List.cons_prefix_cons.mpr ⟨rfl, List.nil_prefix⟩, rfl⟩
  | case3 text hescape hne =>
    rw [readItems, if_neg hne, if_pos rfl, hescape] at h
    cases h
  | case4 text decoded m hescape hne ih =>
    rw [readItems, if_neg hne, if_pos rfl, hescape] at h
    obtain ⟨⟨items, k⟩, hread, heq⟩ := Option.map_eq_some_iff.mp h
    cases heq
    obtain ⟨escape, ⟨rest, rfl⟩, hlength, hbytes⟩ := whole_readEscape hescape
    -- the escape is a prefix, and the items behind it are read from what is left
    rw [← hlength, List.drop_left] at hread ih
    obtain ⟨read, hprefix, hread'⟩ := ih hread
    refine ⟨'\\' :: (escape ++ read), ?_, ?_⟩
    · exact List.cons_prefix_cons.mpr ⟨rfl, (List.prefix_append_right_inj escape).mpr hprefix⟩
    · rw [byteLength_cons, byteLength_append, hread', hbytes, show '\\'.utf8Size = 1 from rfl]
      omega
  | case5 c text hquote hbackslash ih =>
    rw [readItems, if_neg hquote, if_neg hbackslash] at h
    obtain ⟨⟨items, k⟩, hread, heq⟩ := Option.map_eq_some_iff.mp h
    cases heq
    rw [Nat.add_comm]
    exact (ih hread).cons c

instance : jsonString.Whole where
  wholeBytes {text value n} h := by
    change readQuoted text = _ at h
    unfold readQuoted at h
    split at h
    · cases h
    · split at h
      · obtain ⟨⟨items, m⟩, hread, heq⟩ := Option.map_eq_some_iff.mp h
        cases heq
        rename_i hquote
        cases hquote
        rw [Nat.add_comm]
        exact (wholeBytes_readItems hread).cons '"'
      · cases h

/-! ## Patterns -/

/-- Whatever an engine finds ends behind a character. -/
theorem whole_pattern [PatternEngine] {pattern : String} {s : Scanner String}
    (h : pattern? pattern = .ok s) : s.Whole := by
  unfold pattern? at h
  split at h
  · cases h
    refine ⟨fun {text _ _} hread => ?_⟩
    obtain ⟨m, -, heq⟩ := Option.map_eq_some_iff.mp hread
    cases heq
    exact wholeBytes_of_prefix ⟨m.rest, m.append_eq⟩
  · cases h

end Text

end Parsing
