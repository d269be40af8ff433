import Parsing.Proofs.Text.Numeral

/-!
# The languages of identifiers

An identifier is a word of `[a-zA-Z_][a-zA-Z_0-9]*`, or of the same with `$` among the letters, and
the longest such word in front of a text is read (`readWord_eq_some_iff`). Between backticks a name
may have any other characters, and it ends at the first backtick (`IsTicked`).
-/

namespace Parsing

namespace Text

open scoped Computability

open Numeral (letters mem_letters mem_kstar_letters isDigit_eq_true_iff)

/-- The words of a character of a kind and any number of characters of that kind and digits. -/
def words (starts : Char → Prop) : Language Char :=
  letters starts * (letters fun c => starts c ∨ '0' ≤ c ∧ c ≤ '9')∗

/-- The words of `[a-zA-Z_][a-zA-Z_0-9]*`. -/
def identifiers : Language Char :=
  words fun c => 'a' ≤ c ∧ c ≤ 'z' ∨ 'A' ≤ c ∧ c ≤ 'Z' ∨ c = '_'

/-- The words of `[a-zA-Z_$][a-zA-Z_$0-9]*`. -/
def javaIdentifiers : Language Char :=
  words fun c => 'a' ≤ c ∧ c ≤ 'z' ∨ 'A' ≤ c ∧ c ≤ 'Z' ∨ c = '_' ∨ c = '$'

/-- Whether a word is what stands in front of a text from a backtick to the next one. -/
def IsTicked (w text : List Char) : Prop :=
  ∃ name, tick ∉ name ∧ w = tick :: (name ++ [tick]) ∧ w <+: text

/-! ## Words -/

section

variable {kind : Char → Prop} {starts goesOn : Char → Bool} {w text : List Char} {v : String}
  {n : ℕ}

/-- A word is a character of its kind with such characters or digits behind it. -/
theorem mem_words : w ∈ words kind ↔ ∃ c more, w = c :: more ∧ kind c ∧
    ∀ d ∈ more, kind d ∨ '0' ≤ d ∧ d ≤ '9' := by
  rw [words, Language.mem_mul]
  constructor
  · rintro ⟨first, hfirst, more, hmore, rfl⟩
    obtain ⟨c, hc, rfl⟩ := mem_letters.mp hfirst
    exact ⟨c, more, rfl, hc, mem_kstar_letters.mp hmore⟩
  · rintro ⟨c, more, rfl, hc, hmore⟩
    exact ⟨[c], mem_letters.mpr ⟨c, hc, rfl⟩, more, mem_kstar_letters.mpr hmore, rfl⟩

/-- A prefix of characters that go on is no longer than the longest one. -/
theorem length_le_takeWhile (hw : w <+: text) (hall : ∀ c ∈ w, goesOn c = true) :
    w.length ≤ (text.takeWhile goesOn).length := by
  obtain ⟨rest, rfl⟩ := hw
  rw [List.takeWhile_append_of_pos hall, List.length_append]
  exact Nat.le_add_right _ _

/-- What is read is the longest word in front of a text. -/
theorem longestOf_words {c : Char} (hstarts : ∀ c, starts c = true ↔ kind c)
    (hgoesOn : ∀ c, goesOn c = (starts c || c.isDigit)) (hc : starts c = true) (text : List Char) :
    LongestOf (words kind) (c :: text.takeWhile goesOn) (c :: text) := by
  have hkind (d : Char) : goesOn d = true ↔ kind d ∨ '0' ≤ d ∧ d ≤ '9' := by
    rw [hgoesOn, Bool.or_eq_true, hstarts, isDigit_eq_true_iff]
  refine ⟨mem_words.mpr ⟨c, _, rfl, (hstarts c).mp hc, fun d hd => ?_⟩, ?_, fun v hv hfront => ?_⟩
  · exact (hkind d).mp (List.all_eq_true.mp List.all_takeWhile d hd)
  · exact List.cons_prefix_cons.mpr ⟨rfl, List.takeWhile_prefix goesOn⟩
  · obtain ⟨d, more, rfl, -, hmore⟩ := mem_words.mp hv
    have hprefix := (List.cons_prefix_cons.mp hfront).2
    exact Nat.succ_le_succ (length_le_takeWhile hprefix fun d hd => (hkind d).mpr (hmore d hd))

/-- A word is read just where one stands in front, and that is the longest one. -/
theorem readWord_eq_some_iff (hstarts : ∀ c, starts c = true ↔ kind c)
    (hgoesOn : ∀ c, goesOn c = (starts c || c.isDigit)) :
    readWord starts goesOn text = some (v, n) ↔
      LongestOf (words kind) v.toList text ∧ byteLength v.toList = n := by
  constructor
  · intro h
    unfold readWord at h
    split at h
    · cases h
    · split at h
      · cases h
        rw [String.toList_ofList]
        exact ⟨longestOf_words hstarts hgoesOn ‹_› _, rfl⟩
      · cases h
  · rintro ⟨hv, rfl⟩
    obtain ⟨c, more, hword, hc, -⟩ := mem_words.mp hv.mem
    obtain ⟨rest, rfl⟩ := hv.isPrefix
    rw [hword, List.cons_append] at hv ⊢
    have hstart := (hstarts c).mpr hc
    have hread := hv.unique (longestOf_words hstarts hgoesOn hstart (more ++ rest))
    rw [readWord, if_pos hstart, ← hread, ← hword]
    simp only [String.ofList_toList]

end

/-! ## Kinds of letters -/

section

variable {c : Char} {text : List Char} {v : String} {n : ℕ}

theorem isUpper_eq_true_iff (c : Char) : c.isUpper = true ↔ 'A' ≤ c ∧ c ≤ 'Z' :=
  decide_eq_true_iff

theorem isLower_eq_true_iff (c : Char) : c.isLower = true ↔ 'a' ≤ c ∧ c ≤ 'z' :=
  Bool.and_eq_true_iff.trans (and_congr decide_eq_true_iff decide_eq_true_iff)

theorem isAlpha_eq_true_iff (c : Char) :
    c.isAlpha = true ↔ 'a' ≤ c ∧ c ≤ 'z' ∨ 'A' ≤ c ∧ c ≤ 'Z' := by
  change (c.isUpper || c.isLower) = true ↔ _
  rw [Bool.or_eq_true, isUpper_eq_true_iff, isLower_eq_true_iff, or_comm]

theorem startsIdentifier_iff (c : Char) : startsIdentifier c = true ↔
    'a' ≤ c ∧ c ≤ 'z' ∨ 'A' ≤ c ∧ c ≤ 'Z' ∨ c = '_' := by
  rw [startsIdentifier, Bool.or_eq_true, isAlpha_eq_true_iff, beq_iff_eq, or_assoc]

theorem startsJavaIdentifier_iff (c : Char) : startsJavaIdentifier c = true ↔
    'a' ≤ c ∧ c ≤ 'z' ∨ 'A' ≤ c ∧ c ≤ 'Z' ∨ c = '_' ∨ c = '$' := by
  rw [startsJavaIdentifier, Bool.or_eq_true, startsIdentifier_iff, beq_iff_eq, or_assoc, or_assoc]

theorem scan_identifier_eq_some_iff : identifier.scan text = some (v, n) ↔
    LongestOf identifiers v.toList text ∧ byteLength v.toList = n :=
  readWord_eq_some_iff startsIdentifier_iff fun _ => rfl

theorem readJavaIdentifier_eq_some_iff : readJavaIdentifier text = some (v, n) ↔
    LongestOf javaIdentifiers v.toList text ∧ byteLength v.toList = n :=
  readWord_eq_some_iff startsJavaIdentifier_iff fun _ => rfl

/-! ## Backticks -/

/-- Behind a backtick, what is read ends with the next one. -/
theorem readKotlinIdentifier_tick {name : List Char} (hname : tick ∉ name) (rest : List Char) :
    readKotlinIdentifier (tick :: (name ++ tick :: rest)) =
      some (String.ofList (tick :: (name ++ [tick])), byteLength (tick :: (name ++ [tick]))) := by
  have hne : ∀ c ∈ name, (c != tick) = true := fun c hc => bne_iff_ne.mpr fun h => hname (h ▸ hc)
  have hread : (name ++ tick :: rest).takeWhile (· != tick) = name := by
    rw [List.takeWhile_append_of_pos hne, List.takeWhile_cons_of_neg (by simp), List.append_nil]
  have hcontains : (name ++ tick :: rest).contains tick = true := by
    rw [List.contains_iff_mem]
    exact List.mem_append_right name List.mem_cons_self
  rw [readKotlinIdentifier, if_pos rfl, if_pos hcontains, hread]

/-- Whatever is read behind a backtick ends with the next one. -/
theorem isTicked_of_readKotlinIdentifier
    (h : readKotlinIdentifier (tick :: text) = some (v, n)) :
    IsTicked v.toList (tick :: text) ∧ byteLength v.toList = n := by
  rw [readKotlinIdentifier, if_pos rfl] at h
  split at h
  · rename_i htick
    cases h
    rw [String.toList_ofList]
    refine ⟨⟨text.takeWhile (· != tick), fun hmem => ?_, rfl, ?_⟩, rfl⟩
    · have hne : ∀ c ∈ text.takeWhile (· != tick), (c != tick) = true :=
        List.all_eq_true.mp List.all_takeWhile
      exact absurd rfl (bne_iff_ne.mp (hne tick hmem))
    · exact List.cons_prefix_cons.mpr
        ⟨rfl, takeWhile_append_singleton_prefix (List.contains_iff_mem.mp htick)⟩
  · cases h

/-- What begins an identifier is no backtick. -/
theorem head?_ne_tick_of_longestOf {w : List Char} (h : LongestOf javaIdentifiers w text) :
    text.head? ≠ some tick := by
  obtain ⟨c, more, rfl, hc, -⟩ := mem_words.mp h.mem
  obtain ⟨rest, rfl⟩ := h.isPrefix
  rintro htick
  cases htick
  revert hc
  decide

/-- Without a backtick an identifier is read as one without backticks. -/
theorem readKotlinIdentifier_of_ne (h : text.head? ≠ some tick) :
    readKotlinIdentifier text = readJavaIdentifier text := by
  cases text with
  | nil => rfl
  | cons c text => exact if_neg fun hc => h (congrArg some hc)

/-- What is read is an identifier as Java has them, or it ends with the next backtick. -/
theorem readKotlinIdentifier_eq_some_iff : readKotlinIdentifier text = some (v, n) ↔
    (LongestOf javaIdentifiers v.toList text ∨ IsTicked v.toList text) ∧
      byteLength v.toList = n := by
  constructor
  · intro h
    by_cases htick : text.head? = some tick
    · obtain ⟨text, rfl⟩ := List.head?_eq_some_iff.mp htick
      exact (isTicked_of_readKotlinIdentifier h).imp_left .inr
    · rw [readKotlinIdentifier_of_ne htick] at h
      exact (readJavaIdentifier_eq_some_iff.mp h).imp_left .inl
  · rintro ⟨hlongest | ⟨name, hname, hv, rest, rfl⟩, rfl⟩
    · rw [readKotlinIdentifier_of_ne (head?_ne_tick_of_longestOf hlongest)]
      exact readJavaIdentifier_eq_some_iff.mpr ⟨hlongest, rfl⟩
    · have htext : v.toList ++ rest = tick :: (name ++ tick :: rest) := by
        rw [hv, List.cons_append, List.append_assoc, List.singleton_append]
      rw [htext, readKotlinIdentifier_tick hname, ← hv, String.ofList_toList]

end

end Text

end Parsing
