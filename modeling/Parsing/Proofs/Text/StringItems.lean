import Parsing.Proofs.Text.CInteger

/-!
# The grammar of quoted strings

Between its quotes a string is a sequence of items: characters, and escapes of several widths
(`Escape`, `Items`). Which characters belong to an escape of octal digits depends on what stands
behind it, so an escape is one in front of something. The reader of strings accepts just the words
of this grammar, and gives what they stand for (`readQuoted_eq_some_iff`).

The reader goes from item to item of a list of characters. Over bytes this is a loop with an offset
that cuts the text there (`sliceQuoted`); all its cuts are between two characters, so that it
comes to the same (`sliceQuoted_eq`).
-/

namespace Parsing

namespace Text

/-! ## The grammar -/

/-- The letters behind a backslash, and what they stand for. -/
def letterEscapes : List (Char × Char) :=
  [('b', '\x08'), ('f', '\x0c'), ('n', '\n'), ('r', '\r'), ('t', '\t'), ('\'', '\''), ('"', '"'),
    ('\\', '\\')]

/-- Whether a character stands for a number: the one with this code point, or U+FFFD if there is
none. -/
def Denotes (d : Char) (codePoint : ℕ) : Prop :=
  if codePoint.isValidChar then d.toNat = codePoint else d = '\uFFFD'

/-- Whether some characters are the digits in front of others, up to a number of digits. -/
structure IsRunUpTo (radix most : ℕ) (digits behind : List Char) : Prop where
  isDigit : ∀ c ∈ digits, isDigitIn radix c = true
  length_le : digits.length ≤ most
  maximal : digits.length < most → ∀ c ∈ behind.head?, isDigitIn radix c = false

/-- Whether the characters behind a backslash, in front of others, are an escape for a character. -/
inductive Escape : List Char → List Char → Char → Prop where
  | letter {c d : Char} {behind : List Char} (h : (c, d) ∈ letterEscapes) : Escape [c] behind d
  | hexadecimal {x d : Char} {digits behind : List Char}
      (hwidth : x = 'x' ∧ digits.length = 2 ∨ x = 'u' ∧ digits.length = 4)
      (hdigits : ∀ c ∈ digits, isDigitIn 16 c = true) (hd : Denotes d (digitsValue 16 digits)) :
      Escape (x :: digits) behind d
  | octal {d : Char} {digits behind : List Char} (hne : digits ≠ [])
      (hrun : IsRunUpTo 8 3 digits behind) (hd : Denotes d (digitsValue 8 digits)) :
      Escape digits behind d

/-- Whether some characters are items of a string, and what they stand for. -/
inductive Items : List Char → List Char → Prop where
  | nil : Items [] []
  | plain {c : Char} {items value : List Char} (hquote : c ≠ '"') (hbackslash : c ≠ '\\')
      (h : Items items value) : Items (c :: items) (c :: value)
  | escape {e items value : List Char} {d : Char} (he : Escape e items d) (h : Items items value) :
      Items ('\\' :: (e ++ items)) (d :: value)

/-- Whether a word is a string with its quotes, and what it stands for. -/
def IsQuoted (w value : List Char) : Prop :=
  ∃ items, w = '"' :: (items ++ ['"']) ∧ Items items value

/-! ## Escapes -/

section

variable {c d : Char} {n radix most : ℕ} {e digits behind text : List Char}

theorem denotes_iff (d : Char) (n : ℕ) : Denotes d n ↔ characterOf n = d := by
  unfold Denotes characterOf
  by_cases h : n.isValidChar
  · rw [if_pos h, if_pos h]
    constructor
    · rintro rfl
      exact Char.ofNat_toNat d
    · rintro rfl
      rw [Char.ofNat, dif_pos h]
      rfl
  · rw [if_neg h, if_neg h, eq_comm]

/-- The escapes of one letter are those in the list. -/
theorem simpleEscape?_eq_some_iff : simpleEscape? c = some d ↔ (c, d) ∈ letterEscapes := by
  simp only [letterEscapes, List.mem_cons, Prod.mk.injEq, List.not_mem_nil, or_false]
  constructor
  · intro h
    unfold simpleEscape? at h
    split at h <;> cases h <;> simp
  · rintro (⟨rfl, rfl⟩ | ⟨rfl, rfl⟩ | ⟨rfl, rfl⟩ | ⟨rfl, rfl⟩ | ⟨rfl, rfl⟩ | ⟨rfl, rfl⟩ |
      ⟨rfl, rfl⟩ | ⟨rfl, rfl⟩) <;> rfl

/-- No letter of an escape is an octal digit. -/
theorem simpleEscape?_of_isDigitIn (h : isDigitIn 8 c = true) : simpleEscape? c = none := by
  unfold simpleEscape?
  split <;> first | rfl | exact absurd h (by decide)

theorem IsRunUpTo.takeWhile_eq (h : IsRunUpTo radix most digits behind) :
    ((digits ++ behind).take most).takeWhile (isDigitIn radix) = digits := by
  obtain ⟨more, rfl⟩ := Nat.exists_eq_add_of_le h.length_le
  rw [List.take_length_add_append, List.takeWhile_append_of_pos h.isDigit]
  refine List.append_right_eq_self.mpr ?_
  cases behind with
  | nil => rw [List.take_nil, List.takeWhile_nil]
  | cons c behind =>
    cases more with
    | zero => rfl
    | succ more =>
      have hc := h.maximal (Nat.lt_add_of_pos_right (Nat.succ_pos more)) c rfl
      rw [List.take_succ_cons, List.takeWhile_cons_of_neg (by rw [hc]; exact Bool.false_ne_true)]

theorem isRunUpTo_nil (h : 0 < most → ∀ c ∈ behind.head?, isDigitIn radix c = false) :
    IsRunUpTo radix most [] behind :=
  ⟨fun _ hc => absurd hc List.not_mem_nil, Nat.zero_le most, h⟩

/-- The digits in front of a text, up to a length, are such a run. -/
theorem exists_isRunUpTo (radix most : ℕ) (text : List Char) : ∃ behind,
    text = (text.take most).takeWhile (isDigitIn radix) ++ behind ∧
      IsRunUpTo radix most ((text.take most).takeWhile (isDigitIn radix)) behind := by
  induction text generalizing most with
  | nil =>
    rw [List.take_nil, List.takeWhile_nil]
    exact ⟨[], rfl, isRunUpTo_nil fun _ _ hc => absurd hc (by simp)⟩
  | cons c text ih =>
    rcases most with _ | most
    · exact ⟨c :: text, rfl, isRunUpTo_nil fun h => absurd h (Nat.lt_irrefl 0)⟩
    · rw [List.take_succ_cons]
      by_cases hc : isDigitIn radix c = true
      · rw [List.takeWhile_cons_of_pos hc]
        obtain ⟨behind, htext, hrun⟩ := ih most
        refine ⟨behind, congrArg (c :: ·) htext, ?_, Nat.succ_le_succ hrun.length_le, fun hlt => ?_⟩
        · exact List.forall_mem_cons.mpr ⟨hc, hrun.isDigit⟩
        · exact hrun.maximal (Nat.lt_of_succ_lt_succ hlt)
      · rw [List.takeWhile_cons_of_neg hc]
        refine ⟨c :: text, rfl, isRunUpTo_nil fun _ d hd => ?_⟩
        cases hd
        exact Bool.eq_false_iff.mpr hc

/-- Digits of a code point are as many as asked for. -/
theorem readCodePoint_eq_some_iff {width : ℕ} : readCodePoint width text = some (d, n) ↔
    n = width ∧ ∃ digits behind, text = digits ++ behind ∧ digits.length = width ∧
      (∀ c ∈ digits, isDigitIn 16 c = true) ∧ Denotes d (digitsValue 16 digits) := by
  unfold readCodePoint
  constructor
  · intro h
    obtain ⟨behind, htext, hrun⟩ := exists_isRunUpTo 16 width text
    simp only at h
    split at h
    · cases h
      exact ⟨rfl, _, behind, htext, ‹_›, hrun.isDigit, (denotes_iff _ _).mpr rfl⟩
    · cases h
  · rintro ⟨rfl, digits, behind, rfl, hlength, hdigits, hd⟩
    have hrun : IsRunUpTo 16 n digits behind :=
      ⟨hdigits, Nat.le_of_eq hlength, fun hlt => absurd hlt (by omega)⟩
    simp only [hrun.takeWhile_eq, hlength, if_true, (denotes_iff _ _).mp hd]

/-- What is read behind a backslash is an escape. -/
theorem exists_of_readEscape (h : readEscape text = some (d, n)) :
    ∃ e behind, text = e ++ behind ∧ e.length = n ∧ Escape e behind d := by
  unfold readEscape at h
  split at h
  · cases h
  · rename_i x text
    have hcode {width : ℕ} (hx : x = 'x' ∧ width = 2 ∨ x = 'u' ∧ width = 4)
        (h : ((readCodePoint width text).map fun read => (read.1, read.2 + 1)) = some (d, n)) :
        ∃ e behind, x :: text = e ++ behind ∧ e.length = n ∧ Escape e behind d := by
      obtain ⟨⟨d', m⟩, hread, heq⟩ := Option.map_eq_some_iff.mp h
      cases heq
      obtain ⟨rfl, digits, behind, rfl, rfl, hdigits, hd⟩ := readCodePoint_eq_some_iff.mp hread
      exact ⟨x :: digits, behind, rfl, rfl, .hexadecimal hx hdigits hd⟩
    split at h
    · cases h
      exact ⟨[x], text, rfl, rfl, .letter (simpleEscape?_eq_some_iff.mp ‹_›)⟩
    · split at h
      · exact hcode (.inl ⟨‹_›, rfl⟩) h
      · split at h
        · exact hcode (.inr ⟨‹_›, rfl⟩) h
        · obtain ⟨behind, htext, hrun⟩ := exists_isRunUpTo 8 3 (x :: text)
          simp only at h
          split at h
          · cases h
          · rename_i hne
            cases h
            exact ⟨_, behind, htext, rfl, .octal (fun h => hne (List.isEmpty_iff.mpr h)) hrun
              ((denotes_iff _ _).mpr rfl)⟩

/-- An escape is read as far as it goes. -/
theorem Escape.readEscape_eq (h : Escape e behind d) :
    readEscape (e ++ behind) = some (d, e.length) := by
  cases h with
  | letter h =>
    rw [List.cons_append, readEscape, simpleEscape?_eq_some_iff.mpr h]
    rfl
  | @hexadecimal x _ digits _ hwidth hdigits hd =>
    have hread {width : ℕ} (hlength : digits.length = width) :
        readCodePoint width (digits ++ behind) = some (d, width) :=
      readCodePoint_eq_some_iff.mpr ⟨rfl, digits, behind, rfl, hlength, hdigits, hd⟩
    rcases hwidth with ⟨rfl, hlength⟩ | ⟨rfl, hlength⟩
    · change (readCodePoint 2 (digits ++ behind)).map _ = _
      rw [hread hlength, List.length_cons, hlength]
      rfl
    · change (readCodePoint 4 (digits ++ behind)).map _ = _
      rw [hread hlength, List.length_cons, hlength]
      rfl
  | octal hne hrun hd =>
    have htake := hrun.takeWhile_eq
    obtain ⟨c, digits, rfl⟩ := List.exists_cons_of_ne_nil hne
    have hc := hrun.isDigit c List.mem_cons_self
    have hletter : c ≠ 'x' ∧ c ≠ 'u' := by
      constructor <;> rintro rfl <;> exact absurd hc (by decide)
    rw [List.cons_append] at htake ⊢
    rw [readEscape, simpleEscape?_of_isDigitIn hc]
    simp only [hletter.1, hletter.2, if_false, htake, (denotes_iff _ _).mp hd]
    rfl

/-- Whether an escape is one is up to the next character behind it. -/
theorem Escape.of_head? (h : Escape e behind d) {others : List Char}
    (hhead : ∀ c ∈ others.head?, isDigitIn 8 c = true → c ∈ behind.head?) : Escape e others d := by
  cases h with
  | letter h => exact .letter h
  | hexadecimal hwidth hdigits hd => exact .hexadecimal hwidth hdigits hd
  | octal hne hrun hd =>
    refine .octal hne ⟨hrun.isDigit, hrun.length_le, fun hlt c hc => ?_⟩ hd
    refine Bool.eq_false_iff.mpr fun hdigit => ?_
    have hfalse := hrun.maximal hlt c (hhead c hc hdigit)
    rw [hdigit] at hfalse
    cases hfalse

/-- The closing quote does not go on with any escape. -/
theorem escape_append_quote_iff {items : List Char} (behind : List Char) :
    Escape e (items ++ '"' :: behind) d ↔ Escape e items d := by
  constructor <;> refine fun h => h.of_head? fun c hc hdigit => ?_
  · rw [List.head?_append, Option.mem_def.mp hc]
    rfl
  · rw [List.head?_append] at hc
    rcases hhead : items.head? with _ | c'
    · rw [hhead] at hc
      cases hc
      exact absurd hdigit (by decide)
    · rw [hhead] at hc
      exact hc

/-- All characters of an escape take one byte. -/
theorem Escape.byteLength_eq (h : Escape e behind d) : byteLength e = e.length := by
  refine byteLength_of_forall fun c hc => ?_
  cases h with
  | letter h =>
    rw [List.mem_singleton.mp hc]
    exact utf8Size_of_simpleEscape? (simpleEscape?_eq_some_iff.mpr h)
  | hexadecimal hwidth hdigits hd =>
    rcases List.mem_cons.mp hc with rfl | hc
    · rcases hwidth with ⟨rfl, -⟩ | ⟨rfl, -⟩ <;> rfl
    · exact utf8Size_of_isDigitIn (hdigits c hc)
  | octal hne hrun hd => exact utf8Size_of_isDigitIn (hrun.isDigit c hc)

end

/-! ## Items -/

section

variable {items value text behind : List Char} {n : ℕ}

/-- Items are read up to the closing quote. -/
theorem Items.readItems_eq (h : Items items value) (behind : List Char) :
    readItems (items ++ '"' :: behind) = some (value, byteLength items + 1) := by
  induction h with
  | nil =>
    rw [List.nil_append, readItems, if_pos rfl]
    rfl
  | plain hquote hbackslash h ih =>
    rw [List.cons_append, readItems, if_neg hquote, if_neg hbackslash, ih, byteLength_cons]
    simp only [Option.map_some, Option.some.injEq, Prod.mk.injEq, true_and]
    omega
  | escape he h ih =>
    have hread := ((escape_append_quote_iff behind).mpr he).readEscape_eq
    rw [List.cons_append, List.append_assoc, readItems, if_neg (by decide), if_pos rfl, hread]
    simp only [List.drop_left, ih, Option.map_some, Option.some.injEq, Prod.mk.injEq, true_and]
    rw [byteLength_cons, byteLength_append, he.byteLength_eq, show '\\'.utf8Size = 1 from rfl]
    omega

/-- What is read up to a closing quote are items. -/
theorem exists_of_readItems (h : readItems text = some (value, n)) :
    ∃ items behind, text = items ++ '"' :: behind ∧ Items items value := by
  induction text using readItems.induct generalizing value n with
  | case1 =>
    rw [readItems] at h
    cases h
  | case2 text =>
    rw [readItems, if_pos rfl] at h
    cases h
    exact ⟨[], text, rfl, .nil⟩
  | case3 text hescape hne =>
    rw [readItems, if_neg hne, if_pos rfl, hescape] at h
    cases h
  | case4 text decoded m hescape hne ih =>
    rw [readItems, if_neg hne, if_pos rfl, hescape] at h
    obtain ⟨⟨value, k⟩, hread, heq⟩ := Option.map_eq_some_iff.mp h
    cases heq
    obtain ⟨e, after, rfl, rfl, he⟩ := exists_of_readEscape hescape
    rw [List.drop_left] at hread ih
    obtain ⟨items, behind, rfl, hitems⟩ := ih hread
    refine ⟨'\\' :: (e ++ items), behind, ?_, .escape ((escape_append_quote_iff _).mp he) hitems⟩
    rw [List.cons_append, List.append_assoc]
  | case5 c text hquote hbackslash ih =>
    rw [readItems, if_neg hquote, if_neg hbackslash] at h
    obtain ⟨⟨value, k⟩, hread, heq⟩ := Option.map_eq_some_iff.mp h
    cases heq
    obtain ⟨items, behind, rfl, hitems⟩ := ih hread
    exact ⟨c :: items, behind, rfl, .plain hquote hbackslash hitems⟩

/-- The words that are read are the quoted strings, and they are read to what they stand for. -/
theorem readQuoted_eq_some_iff {v : String} : readQuoted text = some (v, n) ↔
    ∃ w, IsQuoted w v.toList ∧ w <+: text ∧ byteLength w = n := by
  constructor
  · intro h
    unfold readQuoted at h
    split at h
    · cases h
    · split at h
      · rename_i hquote
        obtain ⟨⟨value, m⟩, hread, heq⟩ := Option.map_eq_some_iff.mp h
        cases heq
        cases hquote
        obtain ⟨items, behind, rfl, hitems⟩ := exists_of_readItems hread
        rw [hitems.readItems_eq] at hread
        cases hread
        refine ⟨_, ⟨items, rfl, by rwa [String.toList_ofList]⟩, ⟨behind, ?_⟩, ?_⟩
        · rw [List.cons_append, List.append_assoc, List.singleton_append]
        · rw [byteLength_cons, byteLength_append, Nat.add_comm]
          rfl
      · cases h
  · rintro ⟨_, ⟨items, rfl, hitems⟩, ⟨behind, rfl⟩, rfl⟩
    rw [List.cons_append, List.append_assoc, List.singleton_append, readQuoted, if_pos rfl,
      hitems.readItems_eq, byteLength_cons, byteLength_append, Nat.add_comm]
    simp only [Option.map_some, String.ofList_toList]
    rfl

end

/-! ## Offsets of bytes -/

/-- The parts of a text in front of an offset and behind it, if it is in the text and between two
characters. -/
def slice (text : List Char) (offset : ℕ) : Except Halt (List Char × List Char) :=
  match charactersIn? text offset with
  | some n => .ok (text.take n, text.drop n)
  | none => .error .brokenCharacter

/-- How many of the leading characters are digits, up to a number of them. -/
def runLength (radix most : ℕ) (text : List Char) : ℕ :=
  ((text.take most).takeWhile (isDigitIn radix)).length

/-- Reads a code point off as many bytes as it has digits. -/
def sliceCodePoint (radix length : ℕ) (text : List Char) : Except Halt Char := do
  let (digits, _) ← slice text length
  return characterOf (digitsValue radix digits)

/-- Reads what follows a backslash, and gives the number of bytes. -/
def sliceEscape : List Char → Except Halt (Option (Char × ℕ))
  | [] => return none
  | c :: text =>
    match simpleEscape? c with
    | some decoded => return some (decoded, 1)
    | none =>
      if c = 'x' ∨ c = 'u' then
        let width := if c = 'x' then 2 else 4
        if runLength 16 width text = width then
          return some (← sliceCodePoint 16 width text, 1 + width)
        else return none
      else
        let length := runLength 8 3 (c :: text)
        if length = 0 then return none
        else return some (← sliceCodePoint 8 length (c :: text), length)

/-- Reads items from an offset on; `value` is what was read before. In every turn the offset grows,
and `turns` bounds how often. -/
def sliceItems (body : List Char) : ℕ → List Char → ℕ → Except Halt (Option (List Char × ℕ))
  | 0, _, _ => .error .outOfFuel
  | turns + 1, value, offset => do
    let (_, rest) ← slice body offset
    match rest with
    | [] => return none
    | c :: _ =>
      if c = '"' then return some (value, offset + 2)
      else if c = '\\' then
        let (_, behind) ← slice rest 1
        match ← sliceEscape behind with
        | none => return none
        | some (decoded, length) =>
          sliceItems body turns (value ++ [decoded]) (offset + (1 + length))
      else sliceItems body turns (value ++ [c]) (offset + c.utf8Size)

/-- Reads a string with its quotes by offsets. -/
def sliceQuoted (turns : ℕ) : List Char → Except Halt (Option (String × ℕ))
  | [] => return none
  | c :: body =>
    if c = '"' then
      return (← sliceItems body turns [] 0).map fun (value, length) => (String.ofList value, length)
    else return none

section

variable {text body rest : List Char}

/-- A slice of the length of a prefix is the prefix. -/
theorem slice_append (read rest : List Char) :
    slice (read ++ rest) (byteLength read) = .ok (read, rest) := by
  rw [slice, charactersIn?_append]
  simp only [List.take_left, List.drop_left]

theorem sliceCodePoint_append {radix length : ℕ} {digits : List Char}
    (hlength : digits.length = length)
    (hdigits : ∀ c ∈ digits, isDigitIn radix c = true) (behind : List Char) :
    sliceCodePoint radix length (digits ++ behind) =
      .ok (characterOf (digitsValue radix digits)) := by
  have hbytes : byteLength digits = length :=
    (byteLength_of_forall fun c hc => utf8Size_of_isDigitIn (hdigits c hc)).trans hlength
  rw [sliceCodePoint, ← hbytes, slice_append]
  rfl

/-- A code point is cut off between two characters if it has its digits. -/
theorem sliceCodePoint_runLength {radix most length : ℕ}
    (hlength : runLength radix most text = length) :
    sliceCodePoint radix length text =
      .ok (characterOf (digitsValue radix ((text.take most).takeWhile (isDigitIn radix)))) := by
  obtain ⟨behind, htext, hrun⟩ := exists_isRunUpTo radix most text
  have hcode := sliceCodePoint_append hlength hrun.isDigit behind
  rwa [← htext] at hcode

/-- Read in slices, an escape is the same. -/
theorem sliceEscape_eq (text : List Char) : sliceEscape text = .ok (readEscape text) := by
  -- the two escapes that name a code point with a fixed number of digits
  have hcode (width : ℕ) (text : List Char) :
      (if runLength 16 width text = width then
        (do return some (← sliceCodePoint 16 width text, 1 + width) : Except Halt _)
      else return none) =
        .ok ((readCodePoint width text).map fun read => (read.1, read.2 + 1)) := by
    unfold readCodePoint
    by_cases h : runLength 16 width text = width
    · have h' : ((text.take width).takeWhile (isDigitIn 16)).length = width := h
      simp only [h, h', if_true, sliceCodePoint_runLength h, Option.map_some, Nat.add_comm 1]
      rfl
    · have h' : ((text.take width).takeWhile (isDigitIn 16)).length ≠ width := h
      simp only [h, h', if_false]
      rfl
  cases text with
  | nil => rfl
  | cons c text =>
    rw [sliceEscape, readEscape]
    rcases hsimple : simpleEscape? c with _ | d
    · simp only
      by_cases hx : c = 'x'
      · subst hx
        exact hcode 2 text
      · by_cases hu : c = 'u'
        · subst hu
          exact hcode 4 text
        · simp only [hx, hu, or_self, if_false]
          by_cases hempty : runLength 8 3 (c :: text) = 0
          · have hempty' := List.length_eq_zero_iff.mp hempty
            simp only [hempty, hempty', if_true]
            rfl
          · have hempty' : ¬ ((c :: text).take 3).takeWhile (isDigitIn 8) = [] :=
              fun h => hempty (List.length_eq_zero_iff.mpr h)
            simp only [hempty, List.isEmpty_iff, hempty', if_false, sliceCodePoint_runLength rfl]
            rfl
    · rfl

/-- The loop goes on with the items behind what it has read. -/
theorem sliceItems_eq {turns : ℕ} (read : List Char) (hturns : rest.length < turns)
    (value : List Char) :
    sliceItems (read ++ rest) turns value (byteLength read) =
      .ok ((readItems rest).map fun items =>
        (value ++ items.1, byteLength read + items.2 + 1)) := by
  induction turns generalizing read rest value with
  | zero => exact absurd hturns (Nat.not_lt_zero _)
  | succ turns ih =>
    -- behind what a turn takes, the loop is at the next item
    have hnext (taken : List Char) {after : List Char} (hrest : rest = taken ++ after)
        (hne : taken ≠ []) (decoded : Char) :
        sliceItems (read ++ rest) turns (value ++ [decoded]) (byteLength read + byteLength taken) =
          .ok ((readItems after).map fun items =>
            (value ++ decoded :: items.1, byteLength read + (items.2 + byteLength taken) + 1)) := by
      have hlength : after.length < turns := by
        have hpos := List.length_pos_iff.mpr hne
        rw [hrest, List.length_append] at hturns
        omega
      have hafter := ih (read ++ taken) hlength (value ++ [decoded])
      rw [hrest, ← byteLength_append, ← List.append_assoc, hafter, byteLength_append]
      refine congrArg (fun f => Except.ok (Option.map f _)) (funext fun items => ?_)
      rw [List.append_assoc, List.singleton_append, Prod.mk.injEq]
      exact ⟨rfl, by omega⟩
    rw [sliceItems, slice_append]
    cases rest with
    | nil =>
      rw [readItems]
      rfl
    | cons c rest =>
      rw [readItems]
      dsimp only [bind, Except.bind]
      by_cases hquote : c = '"'
      · simp only [hquote, if_true, Option.map_some, List.append_nil]
        rfl
      · by_cases hbackslash : c = '\\'
        · subst hbackslash
          have hcut := slice_append ['\\'] rest
          rw [show byteLength ['\\'] = 1 from rfl, List.singleton_append] at hcut
          simp only [hquote, if_true, if_false, hcut, sliceEscape_eq]
          rcases hescape : readEscape rest with _ | ⟨d, n⟩
          · rfl
          · obtain ⟨e, behind, rfl, rfl, he⟩ := exists_of_readEscape hescape
            have hitems := hnext ('\\' :: e) rfl (List.cons_ne_nil _ e) d
            rw [byteLength_cons, he.byteLength_eq, show '\\'.utf8Size = 1 from rfl] at hitems
            simp only [List.drop_left, hitems, Option.map_map]
            refine congrArg (fun f => Except.ok (Option.map f _)) (funext fun items => ?_)
            simp only [Function.comp_apply, Prod.mk.injEq, true_and]
            omega
        · have hitems := hnext [c] rfl (List.cons_ne_nil c []) c
          rw [byteLength_cons, byteLength_nil, Nat.add_zero] at hitems
          simp only [hquote, hbackslash, if_false, hitems, Option.map_map]
          rfl

/-- Read in slices, a quoted string is the same. -/
theorem sliceQuoted_eq {turns : ℕ} (hturns : text.length < turns) :
    sliceQuoted turns text = .ok (readQuoted text) := by
  cases text with
  | nil => rfl
  | cons c body =>
    rw [sliceQuoted, readQuoted]
    split
    · have hitems := sliceItems_eq [] (Nat.lt_of_succ_lt hturns) []
      rw [List.nil_append, byteLength_nil] at hitems
      rw [hitems]
      simp only [List.nil_append, Nat.zero_add]
      rcases readItems body with _ | ⟨value, n⟩ <;> rfl
    · rfl

end

end Text

/-! ## The parser -/

section

open Text

variable {C ρ : Type} [TextCursor C] [Cursor.Lawful C] [Cursor.Listed C] [TextCursor.Exact C]

/-- The parser for strings succeeds with a value just where a quoted string that stands for it is in
front, and is behind all of its bytes then. Otherwise it fails where it started. The scan over bytes
comes to the same, and stops neither at an offset where it cannot cut nor for want of turns. -/
theorem Parser.run_jsonString (env : Environment TextPrimitive ρ) (fuel : ℕ)
    (ctx : Context TextPrimitive ρ) (c : C) (t : Session C ρ) :
    (∀ v d t', (scan jsonString).run env (fuel + 1) ctx c t = (.ok (.success v d), t') ↔
      t' = t ∧ ∃ w, IsQuoted w v.toList ∧ w <+: TextCursor.rest c ∧
        TextCursor.advanceBytes c (byteLength w) = some d) ∧
    ((∀ w value, IsQuoted w value → ¬ w <+: TextCursor.rest c) →
      (scan jsonString).run env (fuel + 1) ctx c t =
        (.ok (.noSuccess (.failure "string" (Cursor.location c))), t)) ∧
    ∀ text turns, text.length < turns → sliceQuoted turns text = .ok (jsonString.scan text) := by
  refine ⟨fun v d t' => ?_, fun hnone => ?_, fun text turns hturns => sliceQuoted_eq hturns⟩
  · rcases hread : readQuoted (TextCursor.rest c) with _ | ⟨v', n⟩
    · have hrun := run_scan (Recognizer.scan_of_none (s := jsonString) hread) env fuel ctx t
      refine iff_of_false (fun h => ?_) ?_
      · rw [hrun] at h
        cases h
      · rintro ⟨-, w, hw, hfront, -⟩
        have hsome := readQuoted_eq_some_iff.mpr ⟨w, hw, hfront, rfl⟩
        rw [hread] at hsome
        cases hsome
    · -- a string stands in front: the outcome is its value, and any other reading agrees with it
      obtain ⟨w, hw, ⟨behind, hbehind⟩, rfl⟩ := readQuoted_eq_some_iff.mp hread
      have hmove := TextCursor.Exact.advanceBytes_append hbehind.symm
      have hrun := run_scan (Recognizer.scan_of_some (s := jsonString) hbehind.symm hread)
        env fuel ctx t
      constructor
      · intro h
        rw [hrun] at h
        cases h
        exact ⟨rfl, w, hw, ⟨behind, hbehind⟩, hmove⟩
      · rintro ⟨rfl, w', hw', hfront', hmove'⟩
        have hread' := readQuoted_eq_some_iff.mpr ⟨w', hw', hfront', rfl⟩
        rw [hread, Option.some.injEq, Prod.mk.injEq] at hread'
        obtain ⟨rfl, hlength⟩ := hread'
        rw [← hlength, hmove, Option.some.injEq] at hmove'
        rw [hrun, hmove']
  · rcases hread : readQuoted (TextCursor.rest c) with _ | ⟨v, n⟩
    · exact run_scan (Recognizer.scan_of_none hread) env fuel ctx t
    · obtain ⟨w, hw, hfront, -⟩ := readQuoted_eq_some_iff.mp hread
      exact absurd hfront (hnone w _ hw)

end

/-! ### A surrogate next to octal digits -/

namespace Surrogate

/-- Octal digits in front of another digit, and a number between the characters. -/
def items : List Char :=
  "\\1018\\ud800".toList

theorem items_items : Text.Items items "A8\uFFFD".toList := by
  have hrun : Text.IsRunUpTo 8 3 "101".toList ('8' :: "\\ud800".toList) :=
    ⟨List.all_eq_true.mp rfl, by decide, fun hlt => absurd hlt (by decide)⟩
  refine .escape (e := "101".toList) (.octal (by decide) hrun rfl) ?_
  refine .plain (by decide) (by decide) (.escape (e := "ud800".toList) ?_ .nil)
  exact .hexadecimal (.inr ⟨rfl, rfl⟩) (List.all_eq_true.mp rfl) rfl

def text : List Char :=
  '"' :: (items ++ ['"', '!'])

/-- A string with an escape that is none. -/
def malformed : List Char :=
  ['"', '\\', 'q', '"']

end Surrogate

open Surrogate in
theorem Parser.run_jsonString_surrogate :
    (scan Text.jsonString).run Hexadecimal.names 1 {} (TextReader.ofChars text (.offset 0) ⟨0⟩) {} =
      (.ok (.success "A8\uFFFD" ⟨text, ['!'], 13, .offset 13, ⟨0⟩⟩), {}) ∧
    (scan Text.jsonString).run Hexadecimal.names 1 {}
        (TextReader.ofChars malformed (.offset 0) ⟨0⟩) {} =
      (.ok (.noSuccess (.failure "string" (.offset 0))), {}) ∧
    Text.sliceQuoted 15 text = .ok (Text.jsonString.scan text) := by
  obtain ⟨hsuccess, -, hslices⟩ := run_jsonString Hexadecimal.names 0 {}
    (TextReader.ofChars text (.offset 0) ⟨0⟩) {}
  obtain ⟨-, hfailure, -⟩ := run_jsonString Hexadecimal.names 0 {}
    (TextReader.ofChars malformed (.offset 0) ⟨0⟩) {}
  refine ⟨?_, hfailure fun w value hw hfront => ?_, hslices text 15 (by decide)⟩
  · exact (hsuccess _ _ _).mpr ⟨rfl, _, ⟨items, rfl, items_items⟩, ⟨['!'], rfl⟩, rfl⟩
  · have hread : Text.readQuoted malformed = none := by
      rw [malformed, Text.readQuoted, if_pos rfl, Text.readItems, if_neg (by decide), if_pos rfl]
      rfl
    have hsome := Text.readQuoted_eq_some_iff.mpr
      ⟨w, (String.toList_ofList (l := value)).symm ▸ hw, hfront, rfl⟩
    cases hread.symm.trans hsome

end Parsing
