import Mathlib.Data.List.TakeWhile
import Parsing.Pattern.Reader

/-!
# Patterns in a group

What is read of a text is also read of it with a closing parenthesis behind, which is then left.
-/

namespace Parsing.Pattern

section Lists

variable {α : Type} {p : α → Bool} {xs ys : List α}

/-- A run that ends within a list ends there with more behind the list, too. -/
theorem takeWhile_append_of_dropWhile (h : xs.dropWhile p ≠ []) :
    (xs ++ ys).takeWhile p = xs.takeWhile p := by
  rw [List.takeWhile_append, if_neg]
  intro hlength
  have hnil := congrArg List.length (List.takeWhile_append_dropWhile (p := p) (l := xs))
  rw [List.length_append, hlength] at hnil
  exact h (List.eq_nil_of_length_eq_zero (by omega))

/-- What is left behind a run. -/
theorem drop_length_takeWhile (p : α → Bool) (xs : List α) :
    xs.drop (xs.takeWhile p).length = xs.dropWhile p := by
  have hdrop : (xs.takeWhile p ++ xs.dropWhile p).drop (xs.takeWhile p).length = xs.dropWhile p :=
    List.drop_left
  rwa [List.takeWhile_append_dropWhile] at hdrop

/-- If something is left without the prefix, it stays in front of what is appended. -/
theorem dropWhile_append_of_dropWhile (h : xs.dropWhile p ≠ []) :
    (xs ++ ys).dropWhile p = xs.dropWhile p ++ ys := by
  rw [List.dropWhile_append, if_neg (by simpa using h)]

end Lists

/-- Whether what is read of a text is also read of it with a closing parenthesis behind, which is
left like the rest. -/
def Nests {α : Type} (read : List Char → Option (α × List Char)) : Prop :=
  ∀ ⦃text : List Char⦄ ⦃a : α⦄ ⦃rest : List Char⦄, read text = some (a, rest) →
    read (text ++ [')']) = some (a, rest ++ [')'])

section Runs

variable {p : Char → Bool} (hp : p ')' = false) (text : List Char)

include hp in
/-- A run that a closing parenthesis ends is not lengthened by one. -/
theorem takeWhile_append_closing : (text ++ [')']).takeWhile p = text.takeWhile p := by
  rw [List.takeWhile_append, List.takeWhile_cons_of_neg (by simp [hp]), List.append_nil]
  split
  · exact ((List.takeWhile_prefix p).eq_of_length ‹_›).symm
  · rfl

include hp in
/-- What is left behind a run has the closing parenthesis behind it. -/
theorem dropWhile_append_closing : (text ++ [')']).dropWhile p = text.dropWhile p ++ [')'] := by
  rw [List.dropWhile_append, List.dropWhile_cons_of_neg (by simp [hp])]
  split
  · rename_i hnil
    rw [List.isEmpty_iff.mp hnil, List.nil_append]
  · rfl

end Runs

/-- What is made of what was read does not matter. -/
theorem Nests.map {α β : Type} {read : List Char → Option (α × List Char)} (h : Nests read)
    (f : α → β) : Nests fun text => (read text).map fun (a, rest) => (f a, rest) := by
  intro text b rest hread
  obtain ⟨⟨a, rest'⟩, hread, heq⟩ := Option.map_eq_some_iff.mp hread
  cases heq
  simp only [h hread, Option.map_some]

/-- With a parenthesis behind it, a text begins with nothing new that has no parenthesis in it. -/
theorem append_closing_ne (front : List Char) (hfront : ')' ∉ front) {text : List Char}
    (h : ∀ rest, text ≠ front ++ rest) (rest : List Char) : text ++ [')'] ≠ front ++ rest := by
  intro heq
  rcases List.append_eq_append_iff.mp heq with ⟨more, rfl, hmore⟩ | ⟨more, rfl, -⟩
  · rcases more with _ | ⟨c, more⟩
    · exact h [] (by rw [List.append_nil, List.append_nil])
    · rw [(List.cons.inj hmore).1] at hfront
      exact hfront (List.mem_append_right text List.mem_cons_self)
  · exact h more rfl

/-- A closing parenthesis at the end makes no text begin with another character. -/
theorem head?_append_closing_ne {t : Char} (ht : t ≠ ')') {text : List Char}
    (h : text.head? ≠ some t) : (text ++ [')']).head? ≠ some t := by
  cases text with
  | nil => exact fun heq => ht (Option.some.inj heq).symm
  | cons c text => exact h

/-! ## Escapes -/

/-- The character of a run of hexadecimal digits, if they are the code point of one. -/
def Denotes (digits : List Char) (c : Char) : Prop :=
  (Text.digitsValue 16 digits).isValidChar ∧ Char.ofNat (Text.digitsValue 16 digits) = c

/-- A code point in braces is read as far as its digits go, and the brace must follow. -/
theorem readCodePoint_brace_iff {width : Nat} {text rest : List Char} {a : Char} :
    readCodePoint width ('\x7b' :: text) = some (a, rest) ↔
      text.takeWhile (Text.isDigitIn 16) ≠ [] ∧ Denotes (text.takeWhile (Text.isDigitIn 16)) a ∧
        text.dropWhile (Text.isDigitIn 16) = '\x7d' :: rest := by
  rw [readCodePoint, drop_length_takeWhile]
  constructor
  · intro h
    split at h
    · rename_i hdrop
      split at h
      · rename_i hn
        simp only [Bool.and_eq_true, Bool.not_eq_true', List.isEmpty_eq_false_iff,
          decide_eq_true_eq] at hn
        cases h
        exact ⟨hn.1, ⟨hn.2, rfl⟩, hdrop⟩
      · cases h
    · cases h
  · rintro ⟨hne, ⟨hvalid, rfl⟩, hdrop⟩
    simp [hdrop, hne, hvalid]

/-- A code point without braces has as many digits as its width says. -/
theorem readCodePoint_iff {c : Char} (hc : c ≠ '\x7b') {width : Nat} {text rest : List Char}
    {a : Char} : readCodePoint width (c :: text) = some (a, rest) ↔
      (((c :: text).take width).takeWhile (Text.isDigitIn 16)).length = width ∧
        Denotes (((c :: text).take width).takeWhile (Text.isDigitIn 16)) a ∧
          (c :: text).drop width = rest := by
  rw [readCodePoint]
  · simp [Denotes, and_assoc]
  · exact List.cons_ne_nil c text
  · rintro rest ⟨rfl, -⟩
    exact hc rfl

/-- A code point is read in a group as it is without it. -/
theorem nests_readCodePoint (width : Nat) : Nests (readCodePoint width) := by
  intro text a rest h
  cases text with
  | nil => cases h
  | cons c text =>
    rw [List.cons_append]
    by_cases hc : c = '\x7b'
    · subst hc
      rw [readCodePoint_brace_iff] at h ⊢
      rw [takeWhile_append_closing rfl, dropWhile_append_closing rfl, h.2.2]
      exact ⟨h.1, h.2.1, rfl⟩
    · rw [readCodePoint_iff hc] at h ⊢
      -- all of the digits are in front of the parenthesis
      have hwidth : width ≤ (c :: text).length := by
        have hrun := (List.takeWhile_prefix (Text.isDigitIn 16)
          (l := (c :: text).take width)).length_le
        have htake := (List.take_prefix width (c :: text)).length_le
        omega
      rw [← List.cons_append, List.take_append_of_le_length hwidth,
        List.drop_append_of_le_length hwidth, h.2.2]
      exact ⟨h.1, h.2.1, rfl⟩

/-- Behind `\b` a brace is looked at, and the character behind that one. -/
theorem readBoundary_of_ne {text : List Char} (h : text.head? ≠ some '\x7b') :
    readBoundary text = some (.wordBoundary, text) := by
  unfold readBoundary
  simp only
  split
  · exact absurd rfl h
  · rfl

/-- So is a boundary. -/
theorem nests_readBoundary : Nests readBoundary := by
  intro text a rest h
  by_cases hbrace : text.head? = some '\x7b'
  · obtain ⟨inner, rfl⟩ := List.head?_eq_some_iff.mp hbrace
    cases inner with
    | nil => cases h
    | cons c inner =>
      unfold readBoundary at h ⊢
      simp only [List.cons_append] at h ⊢
      split at h
      · rename_i hpart
        rw [if_pos hpart, ← List.cons_append, takeWhile_append_closing rfl,
          dropWhile_append_closing rfl]
        split at h
        case h_5 => cases h
        all_goals
          rename_i hname hdrop
          cases h
          rw [hname, hdrop]
          rfl
      · rename_i hpart
        cases h
        exact if_neg hpart
  · rw [readBoundary_of_ne hbrace] at h
    cases h
    exact readBoundary_of_ne (head?_append_closing_ne (by decide) hbrace)

/-- So is an escape. -/
theorem nests_readEscape : Nests readEscape := by
  intro text e rest h
  cases text with
  | nil => cases h
  | cons c text =>
    rw [List.cons_append]
    unfold readEscape at h ⊢
    simp only at h ⊢
    split at h
    case h_7 => exact (nests_readCodePoint 2).map _ h
    case h_8 => exact (nests_readCodePoint 4).map _ h
    case h_9 => exact (nests_readCodePoint 8).map _ h
    case h_18 => exact nests_readBoundary.map _ h
    case h_22 =>
      split at h
      · rename_i hself
        cases h
        rw [if_pos hself]
      · cases h
    all_goals
      cases h
      rfl

/-! ## Classes -/

/-- What does not begin with a caret is no negation. -/
theorem splitNegation_of_ne {text : List Char} (h : text.head? ≠ some '^') :
    splitNegation text = (false, text) := by
  unfold splitNegation
  split
  · exact absurd rfl h
  · rfl

/-- A negation is split off in a group as it is without it. -/
theorem splitNegation_append_closing (text : List Char) : splitNegation (text ++ [')']) =
    ((splitNegation text).1, (splitNegation text).2 ++ [')']) := by
  by_cases hcaret : text.head? = some '^'
  · obtain ⟨text, rfl⟩ := List.head?_eq_some_iff.mp hcaret
    rfl
  · rw [splitNegation_of_ne hcaret,
      splitNegation_of_ne (head?_append_closing_ne (by decide) hcaret)]

/-- What does not begin with a colon is no class with a name. -/
theorem readNamedClass_of_ne (ignoreCase : Bool) {text : List Char} (h : text.head? ≠ some ':') :
    readNamedClass ignoreCase text = none := by
  unfold readNamedClass
  split
  · exact absurd rfl h
  · rfl

/-- A named class is read of a text just if it is of the text with a parenthesis behind. -/
theorem readNamedClass_append_closing (ignoreCase : Bool) (text : List Char) :
    readNamedClass ignoreCase (text ++ [')']) =
      (readNamedClass ignoreCase text).map fun (a, rest) => (a, rest ++ [')']) := by
  by_cases hcolon : text.head? = some ':'
  · obtain ⟨text, rfl⟩ := List.head?_eq_some_iff.mp hcolon
    rw [List.cons_append, readNamedClass, readNamedClass, splitNegation_append_closing]
    rcases splitNegation text with ⟨negated, name⟩
    simp only
    rcases hdrop : name.dropWhile (· != ':') with _ | ⟨c, rest⟩
    · rw [List.dropWhile_append, hdrop]
      rfl
    · have hne : name.dropWhile (· != ':') ≠ [] := by simp [hdrop]
      rw [dropWhile_append_of_dropWhile hne, takeWhile_append_of_dropWhile hne, hdrop]
      cases rest with
      | nil =>
        split
        · rename_i heq
          cases heq
        · split
          · rename_i heq
            cases heq
          · rfl
      | cons d rest =>
        split
        · rename_i heq
          cases heq
          simp only [Option.map_map]
          rfl
        · rename_i hne
          split
          · rename_i heq
            cases heq
            exact absurd rfl (hne _)
          · rfl
  · rw [readNamedClass_of_ne _ hcolon,
      readNamedClass_of_ne _ (head?_append_closing_ne (by decide) hcolon)]
    rfl

/-- An item of a class is read in a group as it is without it. -/
theorem nests_readClassItem : Nests readClassItem := by
  intro text e rest h
  cases text with
  | nil => cases h
  | cons c text =>
    by_cases hc : c = '\\'
    · subst hc
      exact nests_readEscape h
    · have hread (rest : List Char) : readClassItem (c :: rest) = some (.character c, rest) := by
        rw [readClassItem]
        exact hc
      rw [hread] at h
      cases h
      exact hread _

/-- The class of an item that is not the start of a range. -/
def Escape.class? : Escape → Option CharClass
  | .character c => some (.single c)
  | .class a => some a
  | .anchor _ => none

/-- The class between two items. -/
def Escape.rangeTo? : Escape → Escape → Option CharClass
  | .character low, .character high =>
    if high < low then none else some (.range low.toNat high.toNat)
  | _, _ => none

/-- Whether a hyphen comes next that has something on its right, which neither closes the class nor
is a hyphen itself. -/
def ContinuesRange (text : List Char) : Prop :=
  ∃ rest, text = '-' :: rest ∧ ∀ c ∈ rest.head?, c ≠ ']' ∧ c ≠ '-'

section Range

variable {text rest : List Char} {item : Escape}

/-- A range needs something behind its first item. -/
theorem readClassRange_of_nil (hitem : readClassItem text = some (item, [])) :
    readClassRange text = none := by
  rw [readClassRange, hitem]
  rfl

/-- If a range goes on, its last item is read. -/
theorem readClassRange_of_continuesRange (hrest : ContinuesRange ('-' :: rest))
    (hitem : readClassItem text = some (item, '-' :: rest)) :
    readClassRange text = (readClassItem rest).bind fun (last, rest) =>
      (item.rangeTo? last).map (·, rest) := by
  obtain ⟨rest, heq, hrest⟩ := hrest
  cases heq
  rw [readClassRange, hitem]
  simp only [Option.bind_eq_bind, Option.bind_some]
  split
  · contradiction
  · rename_i heq
    cases heq
    exact absurd rfl (hrest ']' rfl).1
  · rename_i heq
    cases heq
    exact absurd rfl (hrest '-' rfl).2
  · rename_i heq
    cases heq
    cases readClassItem rest with
    | none => rfl
    | some read =>
      obtain ⟨last, rest⟩ := read
      cases item with
      | character low =>
        cases last with
        | character high =>
          simp only [Option.bind_some, Escape.rangeTo?]
          split <;> rfl
        | «class» a => rfl
        | anchor a => rfl
      | «class» a => rfl
      | anchor a => rfl
  · rename_i hne
    exact absurd rfl (hne _)

/-- If it does not go on, the item is a class by itself. -/
theorem readClassRange_of_not_continuesRange (hne : rest ≠ []) (hrest : ¬ ContinuesRange rest)
    (hitem : readClassItem text = some (item, rest)) :
    readClassRange text = item.class?.map (·, rest) := by
  rw [readClassRange, hitem]
  simp only [Option.bind_eq_bind, Option.bind_some]
  split
  · contradiction
  · cases item <;> rfl
  · cases item <;> rfl
  · rename_i rest hbracket hhyphen
    refine absurd ⟨rest, rfl, fun c hc => ?_⟩ hrest
    obtain ⟨rest, rfl⟩ := List.head?_eq_some_iff.mp hc
    constructor
    · rintro rfl
      exact hbracket _ rfl
    · rintro rfl
      exact hhyphen _ rfl
  · cases item <;> rfl

/-- A parenthesis behind the text makes a difference to a hyphen at the end of it only. -/
theorem continuesRange_append_closing (hne : rest ≠ ['-']) (h : ContinuesRange (rest ++ [')'])) :
    ContinuesRange rest := by
  obtain ⟨more, heq, hmore⟩ := h
  rcases rest with _ | ⟨c, rest⟩
  · cases heq
  · cases heq
    refine ⟨rest, rfl, ?_⟩
    rcases rest with _ | ⟨d, rest⟩
    · exact absurd rfl hne
    · exact hmore

/-- A range is read in a group as it is without it. -/
theorem nests_readClassRange : Nests readClassRange := by
  intro text a rest h
  obtain ⟨⟨item, rest'⟩, hitem, -⟩ : ∃ read, readClassItem text = some read ∧ True := by
    rw [readClassRange] at h
    obtain ⟨read, hread, -⟩ := Option.bind_eq_some_iff.mp h
    exact ⟨read, hread, trivial⟩
  have hitem' := nests_readClassItem hitem
  by_cases hcontinues : ContinuesRange rest'
  · obtain ⟨more, rfl, hmore⟩ := hcontinues
    rw [readClassRange_of_continuesRange ⟨more, rfl, hmore⟩ hitem] at h
    rcases more with _ | ⟨c, more⟩
    · cases h
    · have hmore' : ContinuesRange ('-' :: (c :: more ++ [')'])) := ⟨_, rfl, hmore⟩
      rw [readClassRange_of_continuesRange hmore' hitem']
      obtain ⟨⟨last, rest''⟩, hlast, h⟩ := Option.bind_eq_some_iff.mp h
      rw [nests_readClassItem hlast]
      obtain ⟨b, hb, heq⟩ := Option.map_eq_some_iff.mp h
      cases heq
      simp only [Option.bind_some, hb, Option.map_some]
  · have hne : rest' ≠ [] := by
      rintro rfl
      rw [readClassRange_of_nil hitem] at h
      cases h
    rw [readClassRange_of_not_continuesRange hne hcontinues hitem] at h
    have hcontinues' : ¬ ContinuesRange (rest' ++ [')']) := by
      refine fun h => hcontinues (continuesRange_append_closing ?_ h)
      rintro rfl
      exact hcontinues ⟨[], rfl, by simp⟩
    rw [readClassRange_of_not_continuesRange (by simp) hcontinues' hitem']
    obtain ⟨b, hb, heq⟩ := Option.map_eq_some_iff.mp h
    cases heq
    rw [hb]
    rfl

end Range

/-- The start of a class is read in a group as it is without it. -/
theorem readClassStart_append_closing (text : List Char) : readClassStart (text ++ [')']) =
    ((readClassStart text).1, (readClassStart text).2.1, (readClassStart text).2.2 ++ [')']) := by
  rw [readClassStart, readClassStart, splitNegation_append_closing]
  rcases splitNegation text with ⟨negated, text⟩
  simp only
  rw [takeWhile_append_closing rfl, dropWhile_append_closing rfl]
  rcases text.takeWhile (· == '-') with _ | ⟨c, hyphens⟩
  · rcases text.dropWhile (· == '-') with _ | ⟨c, rest⟩
    · rfl
    · by_cases hc : c = ']'
      · subst hc
        rfl
      · simp only [List.cons_append]
        split
        · rename_i heq
          cases heq
          exact absurd rfl hc
        · split
          · rename_i heq
            cases heq
            exact absurd rfl hc
          · rfl
          · contradiction
        · contradiction
  · rfl

/-- So is the rest of a class, by induction on its length. -/
theorem readClassRest_append_closing {ignoreCase : Bool} {n m : Nat} {text rest : List Char}
    {u : ClassUnion} {frames : List ClassFrame} {a : CharClass} {depth : Nat} (hle : n ≤ m)
    (h : readClassRest ignoreCase n text u frames = some (a, depth, rest)) :
    readClassRest ignoreCase m (text ++ [')']) u frames = some (a, depth, rest ++ [')']) := by
  induction n generalizing m text u frames with
  | zero => cases h
  | succ n ih =>
    obtain ⟨m, rfl⟩ := Nat.exists_eq_add_of_le' (Nat.le_trans (Nat.le_add_left 1 n) hle)
    have hle := Nat.le_of_succ_le_succ hle
    unfold readClassRest at h ⊢
    generalize u.finish ignoreCase frames = finished at h ⊢
    obtain ⟨whole, levels, outer⟩ := finished
    simp only at h ⊢
    split at h
    · cases h
    · rename_i text
      simp only [List.cons_append, readNamedClass_append_closing]
      cases hnamed : readNamedClass ignoreCase text with
      | none =>
        rw [hnamed] at h
        simp only [Option.map_none, readClassStart_append_closing]
        exact ih hle h
      | some named =>
        rw [hnamed] at h
        exact ih hle h
    · simp only [List.cons_append]
      split at h
      · split at h
        · cases h
          rfl
        · exact ih hle h
      · cases h
    · exact ih hle h
    · exact ih hle h
    · exact ih hle h
    · -- no mark of a class stands here, and the parenthesis at the end does not make one
      rename_i text hnil hopen hclose hand hminus htilde
      obtain ⟨⟨b, rest'⟩, hrange, hread⟩ := Option.bind_eq_some_iff.mp h
      split
      · rename_i heq
        exact absurd heq (by simp)
      · rename_i heq
        exact absurd heq (append_closing_ne ['['] (by decide) hopen _)
      · rename_i heq
        exact absurd heq (append_closing_ne [']'] (by decide) hclose _)
      · rename_i heq
        exact absurd heq (append_closing_ne ['&', '&'] (by decide) hand _)
      · rename_i heq
        exact absurd heq (append_closing_ne ['-', '-'] (by decide) hminus _)
      · rename_i heq
        exact absurd heq (append_closing_ne ['~', '~'] (by decide) htilde _)
      · rw [nests_readClassRange hrange]
        exact ih hle hread

/-- So is a whole class. -/
theorem readClass_append_closing {ignoreCase : Bool} {n m : Nat} {text rest : List Char}
    {a : CharClass} {depth : Nat} (hle : n ≤ m)
    (h : readClass ignoreCase n text = some (a, depth, rest)) :
    readClass ignoreCase m (text ++ [')']) = some (a, depth, rest ++ [')']) := by
  rw [readClass, readClassStart_append_closing]
  exact readClassRest_append_closing hle h

/-! ## Parts of a pattern -/

/-- A count is a number with white space around it, if it is not too great. -/
theorem readCount_eq (text : List Char) : readCount text =
    if (text.dropWhile Text.isBlank).takeWhile Char.isDigit = [] ∨
        UInt32.size ≤
          Text.digitsValue 10 ((text.dropWhile Text.isBlank).takeWhile Char.isDigit) then
      none
    else some (Text.digitsValue 10 ((text.dropWhile Text.isBlank).takeWhile Char.isDigit),
      ((text.dropWhile Text.isBlank).dropWhile Char.isDigit).dropWhile Text.isBlank) := by
  rw [readCount]
  simp only [drop_length_takeWhile, Bool.or_eq_true, List.isEmpty_iff, decide_eq_true_eq]

/-- A count is read in a group as it is without it. -/
theorem nests_readCount : Nests readCount := by
  intro text n rest h
  rw [readCount_eq] at h ⊢
  have hblank : Text.isBlank ')' = false := by decide
  rw [dropWhile_append_closing hblank, takeWhile_append_closing (by decide),
    dropWhile_append_closing (by decide), dropWhile_append_closing hblank]
  split at h
  · cases h
  · rename_i hn
    cases h
    rw [if_neg hn]

/-- So are the two counts of a repetition. -/
theorem readCounts_append_closing {text rest : List Char} {least : Nat} {greatest : Option Nat}
    (h : readCounts text = some (least, greatest, rest)) :
    readCounts (text ++ [')']) = some (least, greatest, rest ++ [')']) := by
  rw [readCounts] at h ⊢
  obtain ⟨⟨n, text'⟩, hcount, hread⟩ := Option.bind_eq_some_iff.mp h
  rw [nests_readCount hcount]
  simp only [Option.bind_eq_bind, Option.bind_some] at hread ⊢
  split at hread
  · cases hread
    rfl
  · cases hread
    rfl
  · -- a comma: the second count is read if the brace does not close at once
    rename_i text'' hclose
    obtain ⟨⟨k, text'⟩, hcount', hread⟩ := Option.bind_eq_some_iff.mp hread
    have hread' := nests_readCount hcount'
    simp only [List.cons_append]
    split
    · rename_i heq
      cases heq
    · rename_i heq
      exact absurd (List.cons.inj heq).2 (append_closing_ne ['\x7d'] (by decide) hclose _)
    · rename_i heq
      cases heq
      rw [hread']
      simp only [Option.bind_some] at hread ⊢
      split at hread
      · rename_i heq
        cases heq
        simp only [List.cons_append]
        split at hread
        · rename_i hle
          cases hread
          exact if_pos hle
        · cases hread
      · cases hread
    · rename_i hne
      exact absurd rfl (hne _)
  · cases hread

/-- So are flags. -/
theorem nests_readFlags {negative : Bool} {seen : List Char} {flags : Flags} :
    Nests (readFlags negative seen flags) := by
  intro text flags' rest h
  induction text generalizing negative seen flags with
  | nil => cases h
  | cons c text ih =>
    rw [List.cons_append]
    unfold readFlags at h ⊢
    split at h
    · rename_i hend
      rw [if_pos hend]
      split at h
      · cases h
      · rename_i hhyphen
        cases h
        rw [if_neg hhyphen]
        rfl
    · rename_i hend
      rw [if_neg hend]
      split at h
      · cases h
      · rename_i hseen
        rw [if_neg hseen]
        split at h
        · rename_i hhyphen
          rw [if_pos hhyphen]
          exact ih h
        · rename_i hhyphen
          rw [if_neg hhyphen]
          obtain ⟨flags'', hset, hread⟩ := Option.bind_eq_some_iff.mp h
          rw [hset]
          exact ih hread

/-- So is the name of a group. -/
theorem nests_readGroupName (names : List String) : Nests (readGroupName names) := by
  intro text name rest h
  unfold readGroupName at h ⊢
  simp only at h ⊢
  split at h
  · rename_i hname hdrop
    have hne : text.dropWhile (· != '>') ≠ [] := by simp [hdrop]
    rw [takeWhile_append_of_dropWhile hne, dropWhile_append_of_dropWhile hne, hname, hdrop]
    simp only [List.cons_append]
    rw [hname] at h
    split at h
    · rename_i hgood
      cases h
      exact if_pos hgood
    · cases h
  · cases h

/-! ## Places in a pattern -/

namespace PatternState

variable {s t : PatternState} {text : List Char} {frame : Group × Flags} {n m : Nat}

/-- The same place in the text of a pattern that stands in one more group, which ends with it. -/
def within (frame : Group × Flags) (s : PatternState) : PatternState :=
  { s with text := s.text ++ [')'], outer := s.outer ++ [frame] }

/-- A repetition without a question mark behind it prefers what the flags say. -/
theorem repeatLast_of_ne {least : Nat} {greatest : Option Nat} (htext : text.head? ≠ some '?') :
    s.repeatLast least greatest text =
      (s.group.repeatLast least greatest (!s.flags.swapGreed)).map fun group =>
        { s with text, group } := by
  unfold repeatLast
  split
  rename_i heq
  split at heq
  · exact absurd rfl htext
  · cases heq
    rfl

/-- Repeating the last part goes on inside of a frame as it does without it. -/
theorem repeatLast_within {least : Nat} {greatest : Option Nat}
    (h : s.repeatLast least greatest text = some t) :
    (s.within frame).repeatLast least greatest (text ++ [')']) = some (t.within frame) := by
  by_cases htext : text.head? = some '?'
  · obtain ⟨text, rfl⟩ := List.head?_eq_some_iff.mp htext
    obtain ⟨group, hgroup, rfl⟩ := Option.map_eq_some_iff.mp h
    exact Option.map_eq_some_iff.mpr ⟨group, hgroup, rfl⟩
  · rw [repeatLast_of_ne htext] at h
    rw [repeatLast_of_ne (head?_append_closing_ne (by decide) htext)]
    obtain ⟨group, hgroup, rfl⟩ := Option.map_eq_some_iff.mp h
    exact Option.map_eq_some_iff.mpr ⟨group, hgroup, rfl⟩

/-- So does opening a group with a name. -/
theorem openNamed_within (h : s.openNamed text = some t) :
    (s.within frame).openNamed (text ++ [')']) = some (t.within frame) := by
  unfold openNamed at h ⊢
  obtain ⟨⟨name, rest⟩, hname, rfl⟩ := Option.map_eq_some_iff.mp h
  have hname' : readGroupName (s.within frame).names (text ++ [')']) = _ :=
    nests_readGroupName _ hname
  rw [hname']
  rfl

/-- So do flags. -/
theorem openFlags_within (h : s.openFlags text = some t) :
    (s.within frame).openFlags (text ++ [')']) = some (t.within frame) := by
  unfold openFlags at h ⊢
  split at h
  · rename_i hflags
    cases h
    have hflags' : readFlags false [] (s.within frame).flags (text ++ [')']) = _ :=
      nests_readFlags hflags
    rw [hflags']
    rfl
  · rename_i hflags
    split at h
    · cases h
    · rename_i hempty
      cases h
      have hflags' : readFlags false [] (s.within frame).flags (text ++ [')']) = _ :=
        nests_readFlags hflags
      have hempty' : (text ++ [')']).head? ≠ some ')' := by
        cases text with
        | nil => cases hflags
        | cons c text => exact hempty
      rw [hflags']
      exact if_neg hempty'
  · cases h

/-- So does opening a group that is special. -/
theorem openSpecial_within (h : s.openSpecial text = some t) :
    (s.within frame).openSpecial (text ++ [')']) = some (t.within frame) := by
  unfold openSpecial at h ⊢
  split at h
  case h_5 => exact openNamed_within h
  case h_6 hequals hmark =>
    split
    case h_6 heq =>
      cases heq
      exact openNamed_within h
    case h_3 heq =>
      exact absurd (List.cons.inj heq).2 (append_closing_ne ['='] (by decide) hequals _)
    case h_4 heq => exact absurd (List.cons.inj heq).2 (append_closing_ne ['!'] (by decide) hmark _)
    case h_7 hne => exact absurd rfl (hne _)
    all_goals
      rename_i heq
      cases heq
  case h_7 hequals hmark hbehind hnotBehind hnamed hnamed' =>
    split
    case h_1 heq => exact absurd heq (append_closing_ne ['='] (by decide) hequals _)
    case h_2 heq => exact absurd heq (append_closing_ne ['!'] (by decide) hmark _)
    case h_3 heq => exact absurd heq (append_closing_ne ['<', '='] (by decide) hbehind _)
    case h_4 heq => exact absurd heq (append_closing_ne ['<', '!'] (by decide) hnotBehind _)
    case h_5 heq => exact absurd heq (append_closing_ne ['P', '<'] (by decide) hnamed _)
    case h_6 heq => exact absurd heq (append_closing_ne ['<'] (by decide) hnamed' _)
    case h_7 => exact openFlags_within h
  all_goals cases h

/-- So does a parenthesis that opens. -/
theorem openParenthesis_within (h : s.openParenthesis text = some t) :
    (s.within frame).openParenthesis (text ++ [')']) = some (t.within frame) := by
  unfold openParenthesis at h ⊢
  split at h
  · exact openSpecial_within h
  · rename_i hquestion
    cases h
    split
    · rename_i heq
      exact absurd heq (append_closing_ne ['?'] (by decide) hquestion _)
    · rfl

/-- So does one that closes, since its group is inside of the frame. -/
theorem closeParenthesis_within (h : s.closeParenthesis text = some t) :
    (s.within frame).closeParenthesis (text ++ [')']) = some (t.within frame) := by
  unfold closeParenthesis at h ⊢
  split at h
  · cases h
  · rename_i group flags outer houter
    cases h
    simp only [within, houter, List.cons_append]

/-- So does every step of reading. -/
theorem step_within (hle : n ≤ m) (h : s.step n = some t) :
    (s.within frame).step m = some (t.within frame) := by
  obtain ⟨text, flags, group, outer, groups, names⟩ := s
  rcases text with _ | ⟨c, text⟩
  · cases h
  · unfold step at h ⊢
    simp only [within, List.cons_append] at h ⊢
    split at h
    case h_1 => exact openParenthesis_within h
    case h_2 => exact closeParenthesis_within h
    case h_4 =>
      obtain ⟨⟨a, depth, rest⟩, hread, rfl⟩ := Option.map_eq_some_iff.mp h
      simp only [readClass_append_closing hle hread]
      rfl
    case h_5 => exact repeatLast_within h
    case h_6 => exact repeatLast_within h
    case h_7 => exact repeatLast_within h
    case h_8 =>
      obtain ⟨⟨least, greatest, rest⟩, hread, h⟩ := Option.bind_eq_some_iff.mp h
      simp only [readCounts_append_closing hread]
      exact repeatLast_within h
    case h_9 =>
      obtain ⟨⟨e, rest⟩, hread, rfl⟩ := Option.map_eq_some_iff.mp h
      simp only [nests_readEscape hread]
      rfl
    all_goals
      cases h
      rfl

/-- A pattern that stands in one more group becomes a part of the group around. -/
theorem readAll_within (frame : Group × Flags) {r : Nested} (hlt : n < m)
    (h : readAll n s = some r) :
    ∃ part, readAll m (s.within frame) = some (frame.1.push part).inside := by
  induction n generalizing m s with
  | zero => cases h
  | succ n ih =>
    obtain ⟨m, rfl⟩ := Nat.exists_eq_add_of_le' (Nat.succ_le_of_lt (Nat.zero_lt_of_lt hlt))
    have hlt := Nat.lt_of_succ_lt_succ hlt
    have hne : (s.within frame).text.isEmpty = false := by simp [within]
    rw [readAll] at h ⊢
    rw [if_neg (by simp [hne])]
    split at h
    · rename_i hempty
      split at h
      · rename_i houter
        -- the parenthesis closes the group
        refine ⟨s.group.close, ?_⟩
        obtain ⟨text, flags, group, outer, groups, names⟩ := s
        cases List.isEmpty_iff.mp hempty
        cases List.isEmpty_iff.mp houter
        obtain ⟨m, rfl⟩ := Nat.exists_eq_add_of_le' (Nat.succ_le_of_lt (Nat.zero_lt_of_lt hlt))
        rfl
      · cases h
    · obtain ⟨t, hstep, hread⟩ := Option.bind_eq_some_iff.mp h
      obtain ⟨part, hpart⟩ := ih hlt hread
      exact ⟨part, by rw [step_within (Nat.le_of_lt hlt) hstep]; exact hpart⟩

end PatternState

end Parsing.Pattern
