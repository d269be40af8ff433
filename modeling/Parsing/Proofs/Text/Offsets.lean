import Parsing.Proofs.Text.Numeral
import Parsing.Proofs.Text.StringItems

/-!
# Scans by offsets

A scanner reads a list of characters. Over the bytes of a text it is a scan that adds up the lengths
of what it has found and cuts the text at the sums, and it stops where such a cut is behind the end
of the text or inside a character (`slice`). For numbers and identifiers, as for strings, no cut is
of that kind: what is found are whole characters, and where a character is counted as one byte it is
a sign, a point, a letter or a quote that takes one. So the scans come to what the scanners read.
-/

namespace Parsing

namespace Text

/-! ## Cuts -/

section

variable {text read more rest behind : List Char} {n m : ℕ}

/-- Characters that have a number of bytes end at that number of bytes. -/
theorem byteLength_take_of_charactersIn? {k : ℕ} (h : charactersIn? text n = some k) :
    byteLength (text.take k) = n := by
  induction text generalizing n k with
  | nil =>
    cases n with
    | zero => cases h; rfl
    | succ n => cases h
  | cons c text ih =>
    cases n with
    | zero => cases h; rfl
    | succ n =>
      rw [charactersIn?] at h
      split at h
      · obtain ⟨k, hk, rfl⟩ := Option.map_eq_some_iff.mp h
        rw [List.take_succ_cons, byteLength_cons, ih hk]
        omega
      · cases h

/-- A text is cut where some characters end. -/
theorem slice_eq_ok_iff :
    slice text n = .ok (read, rest) ↔ text = read ++ rest ∧ byteLength read = n := by
  constructor
  · intro h
    unfold slice at h
    split at h
    · rename_i k hk
      cases h
      exact ⟨(List.take_append_drop k text).symm, byteLength_take_of_charactersIn? hk⟩
    · cases h
  · rintro ⟨rfl, rfl⟩
    exact slice_append read rest

example : slice ['é', 'a'] 1 = .error .brokenCharacter := rfl

example : slice ['é', 'a'] 4 = .error .brokenCharacter := rfl

/-- Lengths of stretches that follow one another are added up. -/
theorem slice_add (h : slice text n = .ok (read, rest)) (h' : slice rest m = .ok (more, behind)) :
    slice text (n + m) = .ok (read ++ more, behind) := by
  obtain ⟨rfl, rfl⟩ := slice_eq_ok_iff.mp h
  obtain ⟨rfl, rfl⟩ := slice_eq_ok_iff.mp h'
  rw [← List.append_assoc, ← byteLength_append, slice_append]

theorem slice_cons (c : Char) (text : List Char) :
    slice (c :: text) c.utf8Size = .ok ([c], text) :=
  slice_append [c] text

/-- A slice of the length of a run is the run. -/
theorem slice_run (accepts : Char → Bool) (text : List Char) :
    slice text (Scanner.run accepts text).2 =
      .ok (text.takeWhile accepts, text.dropWhile accepts) :=
  slice_eq_ok_iff.mpr ⟨List.takeWhile_append_dropWhile.symm, rfl⟩

theorem byteLength_eq_zero_iff : byteLength text = 0 ↔ text = [] := by
  cases text with
  | nil => exact iff_of_true rfl rfl
  | cons c text =>
    have hpos := Char.utf8Size_pos c
    refine iff_of_false (fun h => ?_) (List.cons_ne_nil c text)
    rw [byteLength_cons] at h
    omega

end

/-! ## Whole numbers -/

/-- How many bytes the digits in front of a text take. -/
def digitsLength (radix : ℕ) (text : List Char) : ℕ :=
  (Scanner.run (isDigitIn radix) text).2

/-- Reads a number in a radix by offsets. -/
def sliceNumber (radix : ℕ) (text : List Char) : Except Halt (Option (ℕ × ℕ)) := do
  let length := digitsLength radix text
  if length = 0 then return none
  let (digits, _) ← slice text length
  return (boundedValue radix digits).map (·, length)

/-- Reads the digits of a hexadecimal number behind `0x` or `0X` by offsets. -/
def slicePrefixedHexadecimal : List Char → Except Halt (Option (ℕ × ℕ))
  | '0' :: 'x' :: text | '0' :: 'X' :: text => do
    return (← sliceNumber 16 text).map fun (n, length) => (n, length + 2)
  | _ => return none

/-- Reads the octal digits behind `0` by offsets. -/
def sliceBehindZero (text : List Char) : Except Halt (Option (ℕ × ℕ)) := do
  let length := digitsLength 8 text
  if length = 0 then return some (0, 1)
  let (digits, _) ← slice text length
  return (boundedValue 8 digits).map (·, length + 1)

/-- Reads a number as C writes them by offsets. -/
def sliceCInteger (text : List Char) : Except Halt (Option (ℕ × ℕ)) := do
  match ← slicePrefixedHexadecimal text with
  | some read => return some read
  | none =>
    match text with
    | '0' :: text => sliceBehindZero text
    | _ => sliceNumber 10 text

section

variable (radix : ℕ) (text : List Char)

theorem digitsLength_eq_zero_iff :
    digitsLength radix text = 0 ↔ text.takeWhile (isDigitIn radix) = [] :=
  byteLength_eq_zero_iff

theorem slice_digitsLength : slice text (digitsLength radix text) =
    .ok (text.takeWhile (isDigitIn radix), text.dropWhile (isDigitIn radix)) :=
  slice_run (isDigitIn radix) text

/-- Read in slices, a number is the same. -/
theorem sliceNumber_eq : sliceNumber radix text = .ok (readNumber radix text) := by
  rw [sliceNumber, readNumber]
  by_cases hempty : text.takeWhile (isDigitIn radix) = []
  · have hzero := (digitsLength_eq_zero_iff radix text).mpr hempty
    simp only [hzero, Scanner.run, hempty, if_true, List.isEmpty_nil]
    rfl
  · have hne := mt (digitsLength_eq_zero_iff radix text).mp hempty
    simp only [hne, if_false, slice_digitsLength, Scanner.run, List.isEmpty_iff, hempty]
    rfl

end

theorem slicePrefixedHexadecimal_eq (text : List Char) :
    slicePrefixedHexadecimal text = .ok (readPrefixedHexadecimal text) := by
  unfold slicePrefixedHexadecimal
  split
  · rw [sliceNumber_eq]
    rfl
  · rw [sliceNumber_eq]
    rfl
  · rename_i hx hX
    rw [readPrefixedHexadecimal.eq_3 text hx hX]
    rfl

theorem sliceBehindZero_eq (text : List Char) :
    sliceBehindZero text = .ok ((boundedValue 8 (text.takeWhile (isDigitIn 8))).map
      (·, digitsLength 8 text + 1)) := by
  rw [sliceBehindZero]
  by_cases hzero : digitsLength 8 text = 0
  · rw [hzero, (digitsLength_eq_zero_iff 8 text).mp hzero]
    rfl
  · simp only [hzero, if_false, slice_digitsLength]
    rfl

/-- Read in slices, an integer is the same. -/
theorem sliceCInteger_eq (text : List Char) : sliceCInteger text = .ok (readCInteger text) := by
  unfold sliceCInteger
  rw [slicePrefixedHexadecimal_eq]
  rcases hread : readPrefixedHexadecimal text with _ | read
  · by_cases hzero : text.head? = some '0'
    · obtain ⟨behind, rfl⟩ := List.head?_eq_some_iff.mp hzero
      rw [readCInteger, hread]
      exact sliceBehindZero_eq behind
    · rw [readCInteger_of_ne_zero hzero]
      dsimp only [bind, Except.bind]
      split
      · exact absurd rfl hzero
      · exact sliceNumber_eq 10 text
  · unfold readCInteger
    rw [hread]
    rfl

/-! ## Numerals -/

/-- How many bytes the sign in front of a text takes. -/
def signLength (text : List Char) : ℕ :=
  if text.head? = some '+' ∨ text.head? = some '-' then 1 else 0

/-- How many bytes the digits behind the point take with which a text begins. -/
def fractionLength : List Char → ℕ
  | [] => 0
  | c :: text => if c = '.' then digitsLength 10 text else 0

/-- How many bytes an exponent takes, if there is one with digits. -/
def sliceExponent : List Char → Except Halt ℕ
  | [] => return 0
  | c :: text => do
    if c ≠ 'e' ∧ c ≠ 'E' then return 0
    let sign := signLength text
    let (_, unsigned) ← slice text sign
    let digits := digitsLength 10 unsigned
    return if digits = 0 then 0 else 1 + sign + digits

/-- The number that a word denotes, if all of it is a numeral. -/
def floatOf? (word : List Char) : Option Float :=
  (Numeral.read word).bind fun n => if n.text = word then some n.toFloat else none

/-- Reads a numeral by offsets. -/
def sliceFloat (text : List Char) : Except Halt (Option (Float × ℕ)) := do
  let sign := signLength text
  let (_, unsigned) ← slice text sign
  let whole := digitsLength 10 unsigned
  let (_, behindWhole) ← slice text (sign + whole)
  let fraction := fractionLength behindWhole
  if whole = 0 ∧ fraction = 0 then return none
  let last := sign + whole + if fraction = 0 then 0 else 1 + fraction
  let (_, behindFraction) ← slice text last
  let stop := last + (← sliceExponent behindFraction)
  let (word, _) ← slice text stop
  return (floatOf? word).map (·, stop)

section

variable (text : List Char)

theorem signLength_eq : signLength text = byteLength (splitSign text).1 := by
  cases text with
  | nil => rfl
  | cons c text =>
    simp only [signLength, splitSign, List.head?_cons, Option.some.injEq, Bool.or_eq_true,
      decide_eq_true_eq]
    split
    · rename_i hc
      rcases hc with rfl | rfl <;> rfl
    · rfl

theorem slice_signLength :
    slice text (signLength text) = .ok ((splitSign text).1, (splitSign text).2) :=
  slice_eq_ok_iff.mpr ⟨(splitSign_append text).symm, (signLength_eq text).symm⟩

theorem digitsLength_ten : digitsLength 10 text = byteLength (splitDigits text).1 := by
  rw [digitsLength, Scanner.run, funext isDigitIn_ten]
  rfl

theorem slice_digitsLength_ten :
    slice text (digitsLength 10 text) = .ok ((splitDigits text).1, (splitDigits text).2) :=
  slice_eq_ok_iff.mpr ⟨(splitDigits_append text).symm, (digitsLength_ten text).symm⟩

/-- There are digits behind a point, or no fraction is read. -/
theorem fractionLength_cases : fractionLength text = 0 ∧ splitFraction text = ([], text) ∨
    ∃ behind, text = '.' :: behind ∧ (splitDigits behind).1 ≠ [] ∧
      fractionLength text = digitsLength 10 behind ∧ splitFraction text = splitDigits behind := by
  cases text with
  | nil => exact .inl ⟨rfl, rfl⟩
  | cons c text =>
    by_cases hc : c = '.'
    · subst hc
      by_cases hempty : (splitDigits text).1 = []
      · refine .inl ⟨(digitsLength_ten text).trans ?_, ?_⟩
        · rw [hempty, byteLength_nil]
        · simp [splitFraction, hempty]
      · refine .inr ⟨text, rfl, hempty, rfl, ?_⟩
        simp [splitFraction, hempty]
    · refine .inl ⟨if_neg hc, ?_⟩
      simp [splitFraction, hc]

theorem fractionLength_eq_zero_iff : fractionLength text = 0 ↔ (splitFraction text).1 = [] := by
  rcases fractionLength_cases text with ⟨hlength, hsplit⟩ | ⟨behind, -, hne, hlength, hsplit⟩
  · rw [hlength, hsplit]
    exact iff_of_true rfl rfl
  · rw [hlength, hsplit, digitsLength_ten, byteLength_eq_zero_iff]

/-- Digits behind a point are cut off together with the point. -/
theorem slice_fractionLength :
    slice text (if fractionLength text = 0 then 0 else 1 + fractionLength text) =
      .ok (writtenFraction (splitFraction text).1, (splitFraction text).2) := by
  rcases fractionLength_cases text with ⟨hlength, hsplit⟩ | ⟨behind, rfl, hne, hlength, hsplit⟩
  · rw [if_pos hlength, hsplit]
    exact slice_append [] text
  · have hpos : fractionLength ('.' :: behind) ≠ 0 := by
      rwa [ne_eq, fractionLength_eq_zero_iff, hsplit]
    rw [if_neg hpos, hsplit, writtenFraction_of_ne_nil hne, hlength]
    exact slice_add (slice_cons '.' behind) (slice_digitsLength_ten behind)

/-- An exponent is as long as it is written. -/
theorem sliceExponent_eq :
    sliceExponent text = .ok (byteLength (writtenExponent (splitExponent text).1)) := by
  cases text with
  | nil => rfl
  | cons c text =>
    rw [sliceExponent, splitExponent]
    by_cases hc : c = 'e' ∨ c = 'E'
    · have hother : ¬ (c ≠ 'e' ∧ c ≠ 'E') := fun h => hc.elim h.1 h.2
      have hsize : c.utf8Size = 1 := by rcases hc with rfl | rfl <;> rfl
      have hletter : (decide (c = 'e') || decide (c = 'E')) = true := by simpa using hc
      simp only [hother, if_false, slice_signLength, hletter, Bool.true_and]
      dsimp only [bind, Except.bind]
      rw [digitsLength_ten, signLength_eq]
      by_cases hempty : (splitDigits (splitSign text).2).1 = []
      · simp only [hempty, byteLength_nil, if_true, List.isEmpty_nil, Bool.not_true]
        rfl
      · have hne := mt byteLength_eq_zero_iff.mp hempty
        have hlength := byteLength_append (splitSign text).1 (splitDigits (splitSign text).2).1
        simp only [hne, if_false, List.isEmpty_eq_false_iff.mpr hempty, Bool.not_false, if_true]
        change Except.ok _ = Except.ok (c.utf8Size + byteLength _)
        rw [hlength, hsize, Nat.add_assoc]
    · obtain ⟨hsmall, hcapital⟩ := not_or.mp hc
      simp only [hsmall, hcapital, ne_eq, not_false_eq_true, and_self, if_true, decide_false,
        Bool.or_self, Bool.false_and]
      rfl

/-- All of a text that is cut off as a numeral denotes its number. -/
theorem floatOf?_text {text : List Char} {n : Numeral} (h : Numeral.read text = some n) :
    floatOf? n.text = some n.toFloat := by
  rw [floatOf?, Numeral.read_text_of_read h, Option.bind_some, if_pos rfl]

theorem slice_writtenExponent :
    slice text (byteLength (writtenExponent (splitExponent text).1)) =
      .ok (writtenExponent (splitExponent text).1, (splitExponent text).2) :=
  slice_eq_ok_iff.mpr ⟨(splitExponent_append text).symm, rfl⟩

/-- Read in slices, a floating-point number is the same. -/
theorem sliceFloat_eq : sliceFloat text = .ok (float.scan text) := by
  -- the parts that are read, one behind the other
  have hsign := slice_signLength text
  rcases hsplit : splitSign text with ⟨sign, unsigned⟩
  rw [hsplit] at hsign
  have hwhole := slice_add hsign (slice_digitsLength_ten unsigned)
  rcases hsplit' : splitDigits unsigned with ⟨whole, behindWhole⟩
  rw [hsplit'] at hwhole
  have hfraction := slice_add hwhole (slice_fractionLength behindWhole)
  rcases hsplit'' : splitFraction behindWhole with ⟨fraction, behindFraction⟩
  rw [hsplit''] at hfraction
  have hword := slice_add hfraction (slice_writtenExponent behindFraction)
  have hnone : digitsLength 10 unsigned = 0 ∧ fractionLength behindWhole = 0 ↔
      whole = [] ∧ fraction = [] := by
    rw [digitsLength_ten, byteLength_eq_zero_iff, fractionLength_eq_zero_iff, hsplit', hsplit'']
  rw [sliceFloat]
  simp only [hsign, hwhole, hfraction, sliceExponent_eq, bind, Except.bind]
  change _ = Except.ok ((Numeral.read text).map _)
  by_cases hempty : whole = [] ∧ fraction = []
  · have hread : Numeral.read text = none := by
      simp only [Numeral.read, hsplit, hsplit', hsplit'', hempty.1, hempty.2]
      rfl
    rw [if_pos (hnone.mpr hempty), hread]
    rfl
  · have hread := Numeral.read_eq_some hsplit hsplit' hsplit'' (not_and_or.mp hempty)
    rw [List.append_assoc, List.append_assoc, ← Numeral.text_eq ⟨sign, whole, fraction, _⟩] at hword
    have hlength := (slice_eq_ok_iff.mp hword).2
    rw [if_neg (mt hnone.mp hempty), hword, hread]
    simp only [floatOf?_text hread, Option.map_some, hlength]
    rfl

end

/-! ## Identifiers -/

/-- Reads one character that passes a test and all that pass another test behind it, by offsets. -/
def sliceWord (starts goesOn : Char → Bool) : List Char → Except Halt (Option (String × ℕ))
  | [] => return none
  | c :: text =>
    if starts c then do
      let (_, behind) ← slice (c :: text) c.utf8Size
      let length := c.utf8Size + (Scanner.run goesOn behind).2
      let (word, _) ← slice (c :: text) length
      return some (String.ofList word, length)
    else return none

def sliceIdentifier : List Char → Except Halt (Option (String × ℕ)) :=
  sliceWord startsIdentifier fun c => startsIdentifier c || c.isDigit

def sliceJavaIdentifier : List Char → Except Halt (Option (String × ℕ)) :=
  sliceWord startsJavaIdentifier fun c => startsJavaIdentifier c || c.isDigit

/-- The offset at which a character first stands in a text. -/
def offsetOf? (c : Char) (text : List Char) : Option ℕ :=
  if text.contains c then some (Scanner.run (· != c) text).2 else none

/-- Reads anything between two backticks, or an identifier as Java has them, by offsets. -/
def sliceKotlinIdentifier : List Char → Except Halt (Option (String × ℕ))
  | [] => return none
  | c :: text =>
    if c = tick then
      match offsetOf? tick text with
      | none => return none
      | some close => do
        let length := close + 2
        let (word, _) ← slice (c :: text) length
        return some (String.ofList word, length)
    else sliceJavaIdentifier (c :: text)

/-- Read in slices, a word is the same. -/
theorem sliceWord_eq (starts goesOn : Char → Bool) (text : List Char) :
    sliceWord starts goesOn text = .ok (readWord starts goesOn text) := by
  cases text with
  | nil => rfl
  | cons c text =>
    rw [sliceWord, readWord]
    by_cases hc : starts c = true
    · have hword := slice_add (slice_cons c text) (slice_run goesOn text)
      simp only [hc, if_true, slice_cons, bind, Except.bind, hword]
      rfl
    · rw [if_neg hc, if_neg hc]
      rfl

/-- From a backtick a text is cut behind the next one. Both take one byte. -/
theorem exists_slice_ticked {text : List Char} (h : tick ∈ text) :
    ∃ rest, slice (tick :: text) ((Scanner.run (· != tick) text).2 + 2) =
      .ok (tick :: (text.takeWhile (· != tick) ++ [tick]), rest) := by
  obtain ⟨rest, hrest⟩ := takeWhile_append_singleton_prefix h
  have hclose : byteLength (text.takeWhile (· != tick) ++ [tick]) =
      (Scanner.run (· != tick) text).2 + 1 := byteLength_append _ _
  have hword := slice_add (slice_cons tick text) (slice_eq_ok_iff.mpr ⟨hrest.symm, hclose⟩)
  have hlength : tick.utf8Size + ((Scanner.run (· != tick) text).2 + 1) =
      (Scanner.run (· != tick) text).2 + 2 := Nat.add_comm 1 _
  exact ⟨rest, hlength ▸ hword⟩

/-- Read in slices, an identifier with or without backticks is the same. -/
theorem sliceKotlinIdentifier_eq (text : List Char) :
    sliceKotlinIdentifier text = .ok (readKotlinIdentifier text) := by
  cases text with
  | nil => rfl
  | cons c text =>
    rw [sliceKotlinIdentifier, readKotlinIdentifier]
    by_cases hc : c = tick
    · subst hc
      by_cases htick : text.contains tick = true
      · obtain ⟨rest, hword⟩ := exists_slice_ticked (List.contains_iff_mem.mp htick)
        have hlength := (slice_eq_ok_iff.mp hword).2
        simp only [offsetOf?, htick, if_true, hword, hlength, bind, Except.bind]
        rfl
      · simp only [offsetOf?, htick, if_true]
        rfl
    · rw [if_neg hc, if_neg hc]
      exact sliceWord_eq _ _ _

/-! ## Strings -/

/-- Reads a string with its quotes by offsets. A turn takes one character at least. -/
def sliceString (text : List Char) : Except Halt (Option (String × ℕ)) :=
  sliceQuoted (text.length + 1) text

/-- Read in slices, a string is the same. -/
theorem sliceString_eq (text : List Char) : sliceString text = .ok (readQuoted text) :=
  sliceQuoted_eq (Nat.lt_succ_self _)

end Text

end Parsing
