import Mathlib.Data.List.DropRight
import Parsing.Parser.Text
import Parsing.Proofs.Parser.Settled
import Parsing.Proofs.Text.Scan

/-!
# Texts of tokens with white space between them

A text may be made of tokens with any white space in front of them and behind them (`Spaced`). An
expression reads some tokens if it comes to its value, and behind the tokens, however they are
spaced (`Parser.ReadsSpaced`). As `lexeme` skips the white space behind a token together with that
in front of the next one, an expression is run where the text ahead is known up to white space, and
what it leaves has none in front (`Text.trimmed`).

The first character that is not white space tells which of several alternatives may succeed
(`Parser.DeclinesAt`).
-/

namespace Parsing

open Cursor

/-! ## White space around tokens -/

namespace Text

/-- A text without the white space in front. -/
def trimmed (text : List Char) : List Char :=
  text.dropWhile isBlank

/-- White space in front of a text is trimmed. -/
theorem trimmed_append {blanks : List Char} (h : blanks.all isBlank) (text : List Char) :
    trimmed (blanks ++ text) = trimmed text := by
  have hdrop : blanks.dropWhile isBlank = [] :=
    List.dropWhile_eq_nil_iff.mpr (List.all_eq_true.mp h)
  rw [trimmed, List.dropWhile_append, hdrop, List.isEmpty_nil, if_pos rfl, trimmed]

theorem trimmed_cons {t : Char} (h : isBlank t = false) (text : List Char) :
    trimmed (t :: text) = t :: text :=
  List.dropWhile_cons_of_neg (by simp [h])

theorem trimmed_eq_of_eq_trimmed {text text' : List Char} (h : text = trimmed text') :
    trimmed text = trimmed text' := by
  rw [h]
  exact List.dropWhile_idempotent _ _

/-- A token of a text with the white space around it. -/
structure Spaced where
  before : List Char
  token : List Char
  after : List Char
  before_blank : before.all isBlank
  after_blank : after.all isBlank

/-- What stands in the text. -/
def Spaced.text (w : Spaced) : List Char :=
  w.before ++ w.token ++ w.after

/-- In front of a token nothing but white space is trimmed. -/
theorem Spaced.trimmed_text_append {w : Spaced} {t : Char} (hw : w.token.head? = some t)
    (ht : isBlank t = false) (rest : List Char) :
    trimmed (w.text ++ rest) = w.token ++ (w.after ++ rest) := by
  obtain ⟨token, htoken⟩ := List.head?_eq_some_iff.mp hw
  rw [Spaced.text, List.append_assoc, List.append_assoc, trimmed_append w.before_blank, htoken,
    List.cons_append, trimmed_cons ht]

theorem Spaced.head?_trimmed_text_append {w : Spaced} {t : Char} (hw : w.token.head? = some t)
    (ht : isBlank t = false) (rest : List Char) :
    (trimmed (w.text ++ rest)).head? = some t := by
  rw [trimmed_text_append hw ht, List.head?_append, hw, Option.some_or]

/-- The text that spaced tokens make. -/
def textOf (written : List Spaced) : List Char :=
  written.flatMap Spaced.text

theorem textOf_append (written written' : List Spaced) :
    textOf (written ++ written') = textOf written ++ textOf written' :=
  List.flatMap_append

theorem textOf_cons (w : Spaced) (written : List Spaced) :
    textOf (w :: written) = w.text ++ textOf written :=
  List.flatMap_cons

/-- Lists of tokens, one behind the other with a separator between them. -/
def separated (separator : List Char) : List (List (List Char)) → List (List Char)
  | [] => []
  | tokens :: others => tokens ++ others.flatMap (separator :: ·)

end Text

open Text

namespace Parser

variable {C ρ α β γ : Type} [TextCursor C] {env : Environment TextPrimitive ρ}
  {S : Scope TextPrimitive ρ → Prop}

/-! ## Reading tokens -/

section Spacing

variable (C env S)

/-- Whether an expression comes to a value, and behind some tokens, wherever these stand with any
white space around them. What is left has no white space in front. -/
def ReadsSpaced (p : Parser TextPrimitive ρ α) (a : α) (tokens : List (List Char)) : Prop :=
  ∀ written : List Spaced, written.map Spaced.token = tokens → ∀ (c : C) (rest : List Char),
    trimmed (TextCursor.rest c) = trimmed (textOf written ++ rest) →
    ∃ d, After c d ∧ TextCursor.rest d = trimmed rest ∧ p.SettlesIn env S c (.success a d)

/-- Whether an expression refuses wherever a certain character comes next, white space apart. -/
def DeclinesAt (p : Parser TextPrimitive ρ α) (t : Char) : Prop :=
  ∀ c : C, (trimmed (TextCursor.rest c)).head? = some t → p.RefusesIn env S c

/-- Whether an expression declines at all characters that fail a test. -/
def BeginsWith (p : Parser TextPrimitive ρ α) (test : Char → Bool) : Prop :=
  ∀ ⦃t : Char⦄, test t = false → DeclinesAt C env S p t

end Spacing

variable {p : Parser TextPrimitive ρ α} {q : Parser TextPrimitive ρ β} {a : α} {b : β}
  {ts us : List (List Char)} {t : Char}

/-- A mapped parser reads the image from the same tokens. -/
theorem ReadsSpaced.map (f : α → β) (h : ReadsSpaced C env S p a ts) :
    ReadsSpaced C env S (map f p) (f a) ts := by
  intro written hwritten c rest hc
  obtain ⟨d, hd, hrest, hsettles⟩ := h written hwritten c rest hc
  exact ⟨d, hd, hrest, hsettles.map f⟩

/-- Two parsers in turn read the tokens of the first one and those of the second. -/
theorem ReadsSpaced.zip (f : α → β → γ) (hp : ReadsSpaced C env S p a ts)
    (hq : ReadsSpaced C env S q b us) : ReadsSpaced C env S (zip f p q) (f a b) (ts ++ us) := by
  intro written hwritten c rest hc
  obtain ⟨first, second, rfl, hfirst, hsecond⟩ := List.map_eq_append_iff.mp hwritten
  rw [textOf_append, List.append_assoc] at hc
  obtain ⟨d, hd, hrest, hsettles⟩ := hp first hfirst c _ hc
  obtain ⟨e, he, hrest', hsettles'⟩ := hq second hsecond d rest (trimmed_eq_of_eq_trimmed hrest)
  exact ⟨e, hd.trans he, hrest', hsettles.zip f hsettles'⟩

theorem DeclinesAt.map (f : α → β) (h : DeclinesAt C env S p t) :
    DeclinesAt C env S (map f p) t :=
  fun c hc => (h c hc).map f

theorem DeclinesAt.zip (f : α → β → γ) (h : DeclinesAt C env S p t) :
    DeclinesAt C env S (zip f p q) t :=
  fun c hc => (h c hc).zip f

/-! ### Alternatives -/

/-- A choice reads what one of its alternatives reads if those in front of it decline. -/
theorem readsSpaced_choiceOf {ps : List (Parser TextPrimitive ρ α)} {i : Nat} (hi : i < ps.length)
    {token : List Char} (h : ReadsSpaced C env S ps[i] a (token :: ts))
    (htoken : token.head? = some t) (ht : isBlank t = false)
    (hbefore : ∀ q ∈ ps.take i, DeclinesAt C env S q t) :
    ReadsSpaced C env S (choiceOf ps) a (token :: ts) := by
  intro written hwritten c rest hc
  obtain ⟨d, hd, hrest, hsettles⟩ := h written hwritten c rest hc
  refine ⟨d, hd, hrest, ?_⟩
  rw [← List.take_append_drop i ps, List.drop_eq_getElem_cons hi]
  refine settlesIn_choiceOf_append (fun q hq => hbefore q hq c ?_) hsettles
  obtain ⟨w, others, rfl, rfl, -⟩ := List.map_eq_cons_iff.mp hwritten
  rw [hc, textOf_cons, List.append_assoc, Spaced.head?_trimmed_text_append htoken ht]

/-- A choice declines where all of its parts do. -/
theorem declinesAt_choiceOf {ps : List (Parser TextPrimitive ρ α)}
    (h : ∀ q ∈ ps, DeclinesAt C env S q t) : DeclinesAt C env S (choiceOf ps) t := by
  intro c hc
  induction ps with
  | nil => exact (refuses_choiceOf_nil c).refusesIn
  | cons q ps ih =>
    obtain ⟨hq, hps⟩ := List.forall_mem_cons.mp h
    exact (hq c hc).choiceOf (ih hps)

/-- The tests of the characters with which expressions may begin tell which of them decline. -/
theorem forall_declinesAt {ps : List (Parser TextPrimitive ρ α)} {tests : List (Char → Bool)}
    (h : List.Forall₂ (BeginsWith C env S) ps tests) (ht : ∀ test ∈ tests, test t = false) :
    ∀ p ∈ ps, DeclinesAt C env S p t := by
  induction h with
  | nil => exact List.forall_mem_nil _
  | cons hp _ ih =>
    obtain ⟨htest, htests⟩ := List.forall_mem_cons.mp ht
    exact List.forall_mem_cons.mpr ⟨hp htest, ih htests⟩

/-! ### Lists -/

section Lists

variable {separator : List Char} {tokens : α → List (List Char)} {rest : List Char}

/-- Pairs of a separator and an element are read up to what is no separator. -/
theorem exists_pairsIn (hq : ReadsSpaced C env S q b [separator])
    (hfollow : DeclinesAt C env S q t) (hrest : (trimmed rest).head? = some t) {as : List α}
    (hp : ∀ a ∈ as, ReadsSpaced C env S p a (tokens a)) {written : List Spaced}
    (hwritten : written.map Spaced.token = (as.map tokens).flatMap (separator :: ·)) {c : C}
    (hc : TextCursor.rest c = trimmed (textOf written ++ rest)) :
    ∃ d, After c d ∧ TextCursor.rest d = trimmed rest ∧ PairsIn env S q p c (as.map (b, ·)) d := by
  induction as generalizing written c with
  | nil =>
    obtain rfl : written = [] := List.map_eq_nil_iff.mp hwritten
    have hc : TextCursor.rest c = trimmed rest := hc
    refine ⟨c, .refl c, hc, (hfollow c ?_).pairsIn⟩
    rw [trimmed_eq_of_eq_trimmed hc, hrest]
  | cons a as ih =>
    obtain ⟨ha, has⟩ := List.forall_mem_cons.mp hp
    rw [List.map_cons, List.flatMap_cons, ← List.singleton_append, List.append_assoc] at hwritten
    obtain ⟨mark, others, rfl, hmark, hothers⟩ := List.map_eq_append_iff.mp hwritten
    obtain ⟨first, later, rfl, hfirst, hlater⟩ := List.map_eq_append_iff.mp hothers
    rw [textOf_append, textOf_append, List.append_assoc, List.append_assoc] at hc
    obtain ⟨d, hd, hrest, hseparator⟩ := hq mark hmark c _ (trimmed_eq_of_eq_trimmed hc)
    obtain ⟨e, he, hrest, helement⟩ := ha first hfirst d _ (trimmed_eq_of_eq_trimmed hrest)
    obtain ⟨f, hf, hrest, hpairs⟩ := ih has hlater hrest
    exact ⟨f, (hd.trans he).trans hf, hrest, hpairs.cons hseparator helement⟩

/-- A list that may be empty is read up to what is neither a separator nor an element. -/
theorem exists_settlesIn_list (shown : String) (hq : ReadsSpaced C env S q b [separator])
    (hfollow : DeclinesAt C env S q t) (hnone : DeclinesAt C env S p t)
    (hrest : (trimmed rest).head? = some t) {as : List α}
    (hp : ∀ a ∈ as, ReadsSpaced C env S p a (tokens a)) {written : List Spaced}
    (hwritten : written.map Spaced.token = separated separator (as.map tokens)) {c : C}
    (hc : TextCursor.rest c = trimmed (textOf written ++ rest)) :
    ∃ d, After c d ∧ TextCursor.rest d = trimmed rest ∧
      (orElse shown [] (joinedBy p q)).SettlesIn env S c (.success as d) := by
  cases as with
  | nil =>
    obtain rfl : written = [] := List.map_eq_nil_iff.mp hwritten
    have hc : TextCursor.rest c = trimmed rest := hc
    refine ⟨c, .refl c, hc, ((hnone c ?_).joined.map _).orElse⟩
    rw [trimmed_eq_of_eq_trimmed hc, hrest]
  | cons a as =>
    obtain ⟨ha, has⟩ := List.forall_mem_cons.mp hp
    obtain ⟨first, later, rfl, hfirst, hlater⟩ := List.map_eq_append_iff.mp hwritten
    rw [textOf_append, List.append_assoc] at hc
    obtain ⟨d, hd, hrestd, hfirst⟩ := ha first hfirst c _ (trimmed_eq_of_eq_trimmed hc)
    obtain ⟨e, he, hreste, hpairs⟩ := exists_pairsIn hq hfollow hrest has hlater hrestd
    have helements : Interleaved.elements (a, as.map (b, ·)) = a :: as := by
      rw [Interleaved.elements, List.map_map]
      exact congrArg (a :: ·) (List.map_id _)
    have hlist := (hpairs.joined hfirst).map Interleaved.elements
    rw [helements] at hlist
    exact ⟨e, hd.trans he, hreste, hlist.orElse⟩

/-- A list between an opening and a closing token. -/
theorem readsSpaced_enclosed {shown : String} {opening : Parser TextPrimitive ρ β}
    {closing : Parser TextPrimitive ρ γ} {x : β} {y : γ} {left right : List Char}
    (hopening : ReadsSpaced C env S opening x [left])
    (hclosing : ReadsSpaced C env S closing y [right]) (hright : right.head? = some t)
    (ht : isBlank t = false)
    (hq : ReadsSpaced C env S q b [separator]) (hfollow : DeclinesAt C env S q t)
    (hnone : DeclinesAt C env S p t) {as : List α}
    (hp : ∀ a ∈ as, ReadsSpaced C env S p a (tokens a)) :
    ReadsSpaced C env S (skip (andThen opening (orElse shown [] (joinedBy p q))) closing) as
      (left :: (separated separator (as.map tokens) ++ [right])) := by
  intro written hwritten c rest hc
  rw [← List.singleton_append] at hwritten
  obtain ⟨front, others, rfl, hfront, hothers⟩ := List.map_eq_append_iff.mp hwritten
  obtain ⟨middle, back, rfl, hmiddle, hback⟩ := List.map_eq_append_iff.mp hothers
  rw [textOf_append, textOf_append, List.append_assoc, List.append_assoc] at hc
  obtain ⟨d, hd, hrestd, hopens⟩ := hopening front hfront c _ hc
  have hend : (trimmed (textOf back ++ rest)).head? = some t := by
    obtain ⟨w, rfl, rfl⟩ := List.map_eq_singleton_iff.mp hback
    rw [textOf_cons, List.append_assoc, Spaced.head?_trimmed_text_append hright ht]
  obtain ⟨e, he, hreste, hlist⟩ :=
    exists_settlesIn_list shown hq hfollow hnone hend hp hmiddle hrestd
  obtain ⟨f, hf, hrestf, hcloses⟩ := hclosing back hback e rest (trimmed_eq_of_eq_trimmed hreste)
  exact ⟨f, (hd.trans he).trans hf, hrestf, (hopens.zip _ hlist).zip _ hcloses⟩

end Lists

/-! ### Recursion -/

section Recursion

variable {name : String} {body : Parser TextPrimitive ρ ρ} {a : ρ}

/-- A name reads what its body reads. -/
theorem ReadsSpaced.self (h : ReadsSpaced C env (Within name body) body a ts) :
    ReadsSpaced C env (Within name body) (self name) a ts := by
  intro written hwritten c rest hc
  obtain ⟨d, hd, hrest, hsettles⟩ := h written hwritten c rest hc
  exact ⟨d, hd, hrest, hsettles.self⟩

theorem DeclinesAt.self (h : DeclinesAt C env (Within name body) body t) :
    DeclinesAt C env (Within name body) (self name) t :=
  fun c hc => (h c hc).self

end Recursion

/-! ## Characters and scanners -/

section Leaves

variable [Cursor.Lawful C] [Cursor.Listed C] [TextCursor.Exact C]

/-- A cursor stands at the first character that is left. -/
theorem current_of_rest {c : C} {rest : List Char} (h : TextCursor.rest c = t :: rest) :
    Cursor.current c = some t := by
  rw [Listed.current_eq, ← TextCursor.Exact.rest_eq, h, List.head?_cons]

theorem settles_char {c : C} {rest : List Char} (h : TextCursor.rest c = t :: rest) :
    (char t).Settles env c (.success t (Cursor.next c)) := by
  refine settles_primitive ?_
  change Recognizer.satisfy _ _ c = _
  simp only [Recognizer.satisfy, current_of_rest h, beq_self_eq_true, if_true]
  rfl

theorem refuses_char {c : C} {rest : List Char} (h : TextCursor.rest c = t :: rest) {u : Char}
    (hne : t ≠ u) : (char u).Refuses env c := by
  refine ⟨.failure s!"'{u}'" (Cursor.location c), rfl, settles_primitive ?_⟩
  change Recognizer.satisfy _ _ c = _
  simp only [Recognizer.satisfy, current_of_rest h, beq_iff_eq, if_neg hne]
  rfl

theorem settles_anyChar {c : C} {rest : List Char} (h : TextCursor.rest c = t :: rest) :
    anyChar.Settles env c (.success t (Cursor.next c)) := by
  refine settles_primitive ?_
  change Recognizer.satisfy _ _ c = _
  simp only [Recognizer.satisfy, current_of_rest h, if_true]
  rfl

theorem settles_anyChar_end {c : C} (h : TextCursor.rest c = []) :
    anyChar.Settles env c (.noSuccess (.failure "any character" (Cursor.location c))) := by
  have hcurrent : Cursor.current c = none := by
    rw [Listed.current_eq, ← TextCursor.Exact.rest_eq, h, List.head?_nil]
  refine settles_primitive ?_
  change Recognizer.satisfy _ _ c = _
  simp only [Recognizer.satisfy, hcurrent]
  rfl

omit [Cursor.Lawful C] [Cursor.Listed C] [TextCursor.Exact C] in
/-- What is not scanned is refused. -/
theorem refuses_scan {s : Scanner α} {c : C} (h : s.scan (TextCursor.rest c) = none) :
    (scan s).Refuses env c :=
  ⟨_, rfl, settles_primitive (Recognizer.scan_of_none h)⟩

/-- What is scanned is settled on. -/
theorem settles_scan {s : Scanner α} {c : C} {read rest : List Char}
    (hrest : TextCursor.rest c = read ++ rest)
    (h : s.scan (read ++ rest) = some (a, byteLength read)) :
    (scan s).Settles env c (.success a (Cursor.next^[read.length] c)) := by
  rw [← hrest] at h
  exact settles_primitive (Recognizer.scan_of_some hrest h)

/-- A literal that stands there is settled on. -/
theorem settles_literal {c : C} {expected : String} {rest : List Char}
    (h : TextCursor.rest c = expected.toList ++ rest) :
    (literal expected).Settles env c
      (.success expected (Cursor.next^[expected.toList.length] c)) := by
  refine settles_scan h ?_
  have hprefix : expected.toList.isPrefixOf (expected.toList ++ rest) = true :=
    List.isPrefixOf_iff_prefix.mpr (List.prefix_append _ _)
  exact if_pos hprefix

omit [Cursor.Lawful C] [Cursor.Listed C] [TextCursor.Exact C] in
/-- A literal that does not stand there is refused. -/
theorem refuses_literal_of_mismatch {c : C} {expected : String}
    (h : ¬ expected.toList <+: TextCursor.rest c) : (literal expected).Refuses env c :=
  refuses_scan (if_neg fun hprefix => h (List.isPrefixOf_iff_prefix.mp hprefix))

omit [Cursor.Lawful C] [Cursor.Listed C] [TextCursor.Exact C] in
theorem refuses_literal {c : C} {expected : String} {u : Char} {rest : List Char}
    (h : TextCursor.rest c = t :: rest) (hne : t ≠ u) (hexpected : expected.toList.head? = some u) :
    (literal expected).Refuses env c := by
  refine refuses_literal_of_mismatch fun hprefix => ?_
  obtain ⟨more, hmore⟩ := hprefix
  obtain ⟨token, htoken⟩ := List.head?_eq_some_iff.mp hexpected
  rw [h, htoken] at hmore
  exact hne (List.cons.inj hmore).1.symm

theorem settlesIn_boolean (value : Bool) {c : C} {rest : List Char}
    (h : TextCursor.rest c = (toString value).toList ++ rest) :
    boolean.SettlesIn env S c
      (.success value (Cursor.next^[(toString value).toList.length] c)) := by
  cases value with
  | true => exact ((settles_literal h).settlesIn.map _).or.named
  | false =>
    have hfirst : (literal "true" : Parser TextPrimitive ρ String).Refuses env c :=
      refuses_literal h (show 'f' ≠ 't' by decide) rfl
    exact ((hfirst.refusesIn.map _).or ((settles_literal h).settlesIn.map _)).named

omit [Cursor.Lawful C] [Cursor.Listed C] [TextCursor.Exact C] in
theorem refusesIn_boolean {c : C} {rest : List Char} (h : TextCursor.rest c = t :: rest)
    (htrue : t ≠ 't') (hfalse : t ≠ 'f') :
    (boolean : Parser TextPrimitive ρ Bool).RefusesIn env S c := by
  have hfirst : (literal "true" : Parser TextPrimitive ρ String).RefusesIn env S c :=
    (refuses_literal h htrue rfl).refusesIn
  have hsecond : (literal "false" : Parser TextPrimitive ρ String).RefusesIn env S c :=
    (refuses_literal h hfalse rfl).refusesIn
  obtain ⟨r, hr, hsettles⟩ := hsecond.map fun _ => false
  exact RefusesIn.named ⟨r, hr, (hfirst.map _).or hsettles⟩

/-! ### White space -/

omit [Cursor.Lawful C] [Cursor.Listed C] [TextCursor.Exact C] in
/-- Past the white space in front. -/
def pastBlanks (c : C) : C :=
  Cursor.next^[((TextCursor.rest c).takeWhile isBlank).length] c

/-- Behind white space the trimmed text is left. -/
theorem rest_pastBlanks (c : C) :
    TextCursor.rest (pastBlanks c) = trimmed (TextCursor.rest c) := by
  rw [pastBlanks, TextCursor.rest_iterate_next]
  nth_rewrite 2 [← List.takeWhile_append_dropWhile (p := isBlank) (l := TextCursor.rest c)]
  exact List.drop_left

theorem scan_spaces (c : C) : Recognizer.scan (m := Except Halt) Text.spaces c =
    .ok (.success (String.ofList ((TextCursor.rest c).takeWhile isBlank)) (pastBlanks c)) :=
  Recognizer.scan_of_some List.takeWhile_append_dropWhile.symm rfl

theorem exists_settles_spaces (env : Environment TextPrimitive ρ) (c : C) : ∃ d, After c d ∧
    TextCursor.rest d = trimmed (TextCursor.rest c) ∧
    ∃ value, spaces.Settles env c (.success value d) :=
  ⟨pastBlanks c, ⟨_, rfl⟩, rest_pastBlanks c, _, settles_primitive (scan_spaces c)⟩

/-! ### Lexemes -/

/-- What reads a token reads it with white space around, too. -/
theorem readsSpaced_lexeme {token : List Char} (htoken : token.head? = some t)
    (ht : isBlank t = false)
    (hp : ∀ (c : C) (rest : List Char), TextCursor.rest c = token ++ rest →
      p.SettlesIn env S c (.success a (Cursor.next^[token.length] c))) :
    ReadsSpaced C env S (lexeme p) a [token] := by
  intro written hwritten c rest hc
  obtain ⟨w, rfl, rfl⟩ := List.map_eq_singleton_iff.mp hwritten
  rw [textOf_cons, List.append_assoc, Spaced.trimmed_text_append htoken ht] at hc
  obtain ⟨d, hd, hrest, _, hbefore⟩ := exists_settles_spaces env c
  have hrest : TextCursor.rest d = w.token ++ (w.after ++ rest) := hrest.trans hc
  let behind := Cursor.next^[w.token.length] d
  have hbehind : TextCursor.rest behind = w.after ++ rest := by
    rw [TextCursor.rest_iterate_next, hrest, List.drop_left]
  obtain ⟨e, he, hrest', _, hafter⟩ := exists_settles_spaces env behind
  refine ⟨e, (hd.trans ⟨_, rfl⟩).trans he, ?_, ?_⟩
  · rw [hrest', hbehind, trimmed_append w.after_blank]
  · exact (hbefore.settlesIn.zip _ (hp d _ hrest)).zip _ hafter.settlesIn

/-- A lexeme declines where its parser refuses. -/
theorem declinesAt_lexeme (hp : ∀ (c : C) (rest : List Char), TextCursor.rest c = t :: rest →
    p.RefusesIn env S c) : DeclinesAt C env S (lexeme p) t := by
  intro c hc
  obtain ⟨d, -, hrest, _, hbefore⟩ := exists_settles_spaces env c
  obtain ⟨rest, htoken⟩ : ∃ rest, TextCursor.rest d = t :: rest := by
    rw [hrest]
    exact List.head?_eq_some_iff.mp hc
  exact (refusesIn_zip_of_settlesIn _ hbefore.settlesIn (hp d rest htoken)).zip _

theorem readsSpaced_mark (ht : isBlank t = false) :
    ReadsSpaced C env S (lexeme (char t)) t [[t]] :=
  readsSpaced_lexeme rfl ht fun _ _ hc => (settles_char hc).settlesIn

theorem declinesAt_mark {u : Char} (hne : t ≠ u) : DeclinesAt C env S (lexeme (char u)) t :=
  declinesAt_lexeme fun _ _ hc => (refuses_char hc hne).refusesIn

end Leaves

end Parser

end Parsing
