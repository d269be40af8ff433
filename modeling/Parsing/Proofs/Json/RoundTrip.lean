import Mathlib.Data.List.Forall2
import Parsing.Proofs.Json.Grammar

/-!
# Reading printed JSON

A value without numbers that is printed with any white space around its tokens is read back
(`Json.run_document`). The first character of a value tells of which kind it is, so that of the six
alternatives those in front of the right one decline.
-/

namespace Parsing.Json

open Parsing.Parser Parsing.Text

variable {C : Type} [TextCursor C] [Cursor.Lawful C] [Cursor.Listed C] [TextCursor.Exact C]
  {env : Environment TextPrimitive Json} {S : Scope TextPrimitive Json → Prop} {t : Char}
  {element : Parser TextPrimitive Json Json}

/-! ## How values begin -/

/-- A quoted string begins with a quotation mark. -/
theorem beginsWith_quoted : BeginsWith C env S (lexeme (scan jsonString)) (· == '"') := by
  refine fun t ht => declinesAt_lexeme fun c rest hc => (refuses_scan ?_).refusesIn
  rw [hc]
  exact if_neg (ne_of_beq_false ht)

/-- What a numeral may begin with. -/
def beginsNumeral (t : Char) : Bool :=
  t.isDigit || t == '+' || t == '-' || t == '.'

/-- Without the beginning of a numeral there is none. -/
theorem read_eq_none (ht : beginsNumeral t = false) (text : List Char) :
    Numeral.read (t :: text) = none := by
  simp only [beginsNumeral, Bool.or_eq_false_iff, beq_eq_false_iff_ne] at ht
  obtain ⟨⟨⟨hdigit, hplus⟩, hminus⟩, hpoint⟩ := ht
  have hsign : splitSign (t :: text) = ([], t :: text) := by
    simp only [splitSign, hplus, hminus, decide_false, Bool.or_self, Bool.false_eq_true, if_false]
  have hwhole : splitDigits (t :: text) = ([], t :: text) := by
    simp only [splitDigits, List.takeWhile_cons, List.dropWhile_cons, hdigit, Bool.false_eq_true,
      if_false]
  have hfraction : splitFraction (t :: text) = ([], t :: text) := by
    simp only [splitFraction, hpoint, decide_false, Bool.false_and, Bool.false_eq_true, if_false]
  simp only [Numeral.read, hsign, hwhole, hfraction, List.isEmpty_nil, Bool.and_self, if_true]

/-- A number begins as numerals do. -/
theorem beginsWith_float : BeginsWith C env S (lexeme (scan float)) beginsNumeral := by
  refine fun t ht => declinesAt_lexeme fun c rest hc => (refuses_scan ?_).refusesIn
  rw [hc]
  exact congrArg (Option.map _) (read_eq_none ht rest)

/-- A mark begins with its character. -/
theorem beginsWith_mark (u : Char) : BeginsWith C env S (mark u) (· == u) :=
  fun _ ht => declinesAt_mark (ne_of_beq_false ht)

/-- An entry begins with the quotation mark of its key. -/
theorem beginsWith_entryOf : BeginsWith C env S (entryOf element) (· == '"') :=
  fun _ ht => ((beginsWith_quoted ht).zip _).zip _

/-- The tests of the characters with which the kinds of values begin. -/
def beginnings : List (Char → Bool) :=
  [(· == 'n'), (· == '"'), beginsNumeral, fun t => t == 't' || t == 'f', (· == '['), (· == '{')]

/-- The kinds of values begin with what the tests at their places accept. -/
theorem beginsWith_kinds :
    List.Forall₂ (BeginsWith C env S) (kinds element) beginnings := by
  refine .cons ?null (.cons ?string (.cons ?number (.cons ?bool (.cons ?array ?others))))
  case null =>
    refine fun t ht => (declinesAt_lexeme fun c rest hc => ?_).map _
    exact (refuses_literal hc (ne_of_beq_false ht) rfl).refusesIn
  case string => exact fun t ht => (beginsWith_quoted ht).map _
  case number => exact fun t ht => (beginsWith_float ht).map _
  case bool =>
    intro t ht
    obtain ⟨htrue, hfalse⟩ := Bool.or_eq_false_iff.mp ht
    refine (declinesAt_lexeme fun c rest hc => ?_).map _
    exact refusesIn_boolean hc (ne_of_beq_false htrue) (ne_of_beq_false hfalse)
  case array => exact fun t ht => (((beginsWith_mark '[' ht).zip _).zip _).map _
  case others => exact .cons (fun t ht => (((beginsWith_mark '{' ht).zip _).zip _).map _) .nil

/-! ## Reading values -/

/-- The scopes inside of the recursive parser. -/
abbrev Inside : Scope TextPrimitive Json → Prop :=
  Within "element" form

/-- An element is declined where no kind of value begins. -/
theorem declinesAt_element (ht : ∀ test ∈ beginnings, test t = false) :
    DeclinesAt C env Inside (.self "element") t :=
  DeclinesAt.self (declinesAt_choiceOf (forall_declinesAt beginsWith_kinds ht))

/-- A quoted string is read back as the string. -/
theorem readsSpaced_quoted (value : String) :
    ReadsSpaced C env S (lexeme (scan jsonString)) value [quoted value] :=
  readsSpaced_lexeme rfl (by decide) fun _ rest hc =>
    (settles_scan hc (readQuoted_quoted value rest)).settlesIn

/-- A list between two marks is read if nothing in it begins with the second one. -/
theorem readsSpaced_listOf {α : Type} {p : Parser TextPrimitive Json α} (left right : Char)
    (hleft : isBlank left = false) (hright : isBlank right = false) (hcomma : right ≠ ',')
    (hnone : DeclinesAt C env S p right) {tokens : α → List (List Char)} {as : List α}
    (hp : ∀ a ∈ as, ReadsSpaced C env S p a (tokens a)) :
    ReadsSpaced C env S (skip (andThen (mark left) (listOf p)) (mark right)) as
      ([left] :: (separated [','] (as.map tokens) ++ [[right]])) :=
  readsSpaced_enclosed (readsSpaced_mark hleft) (readsSpaced_mark hright) rfl hright
    (readsSpaced_mark (by decide)) (declinesAt_mark hcomma) hnone hp

/-- An entry is read back, if its value is. -/
theorem readsSpaced_entryOf {entry : String × Json} {tokens : List (List Char)}
    (h : ReadsSpaced C env S element entry.2 tokens) :
    ReadsSpaced C env S (entryOf element) entry (quoted entry.1 :: [':'] :: tokens) :=
  ((readsSpaced_quoted entry.1).zip _ (readsSpaced_mark (by decide))).zip Prod.mk h

/-- A value is read by the parser of its kind if its first character tells it from the kinds in
front. -/
theorem readsSpaced_form_of_kind {v : Json} {i : Nat} {token : List Char}
    {ts : List (List Char)} (hi : i < (kinds (.self "element")).length)
    (h : ReadsSpaced C env S (kinds (.self "element"))[i] v (token :: ts))
    (htoken : token.head? = some t) (ht : isBlank t = false)
    (hbefore : ∀ test ∈ beginnings.take i, test t = false) :
    ReadsSpaced C env S form v (token :: ts) :=
  readsSpaced_choiceOf hi h htoken ht
    (forall_declinesAt (List.forall₂_take i beginsWith_kinds) hbefore)

/-- Every value without numbers is read inside of the recursive parser. -/
theorem readsSpaced_form {v : Json} (hv : v.NumberFree) :
    ReadsSpaced C env Inside form v v.tokens := by
  induction hv with
  | null =>
    rw [tokens]
    have hread : ReadsSpaced C env Inside (lexeme (literal "null")) "null" ["null".toList] :=
      readsSpaced_lexeme (t := 'n') rfl (by decide) fun _ _ hc => (settles_literal hc).settlesIn
    exact readsSpaced_form_of_kind (i := 0) (by decide) (hread.map _) rfl (by decide) (by decide)
  | bool value =>
    rw [tokens]
    obtain ⟨t, htoken, ht, hbefore⟩ : ∃ t, (toString value).toList.head? = some t ∧
        isBlank t = false ∧ ∀ test ∈ beginnings.take 3, test t = false := by
      cases value with
      | true => exact ⟨'t', by decide⟩
      | false => exact ⟨'f', by decide⟩
    have hread : ReadsSpaced C env Inside (lexeme boolean) value [(toString value).toList] :=
      readsSpaced_lexeme htoken ht fun _ _ hc => settlesIn_boolean value hc
    exact readsSpaced_form_of_kind (i := 3) (by decide) (hread.map bool) htoken ht hbefore
  | string value =>
    rw [tokens]
    exact readsSpaced_form_of_kind (i := 1) (by decide) ((readsSpaced_quoted value).map string) rfl
      (by decide) (by decide)
  | array _ ih =>
    rw [tokens]
    -- the bracket that closes an array begins no element
    have hnone : DeclinesAt C env Inside (.self "element") ']' := declinesAt_element (by decide)
    have hlist := readsSpaced_listOf '[' ']' (by decide) (by decide) (by decide) hnone
      fun v hv => (ih v hv).self
    exact readsSpaced_form_of_kind (i := 4) (by decide) (hlist.map array) rfl (by decide)
      (by decide)
  | object _ ih =>
    rw [tokens]
    have hnone : DeclinesAt C env Inside (entryOf (.self "element")) '}' :=
      beginsWith_entryOf (by decide)
    have hlist := readsSpaced_listOf '{' '}' (by decide) (by decide) (by decide) hnone
      fun entry hentry => readsSpaced_entryOf (ih entry hentry).self
    exact readsSpaced_form_of_kind (i := 5) (by decide) (hlist.map object) rfl (by decide)
      (by decide)

/-- A value without numbers that is printed, with any white space in front of its tokens and behind
them, is read back, and the whole text is consumed. -/
theorem run_document (env : Environment TextPrimitive Json) {v : Json} (hv : v.NumberFree)
    {written : List Spaced} (hwritten : written.map Spaced.token = v.tokens) {c : C}
    (hc : TextCursor.rest c = textOf written) :
    ∃ n, ∀ m, n ≤ m → ∀ (ctx : Context TextPrimitive Json) (s : Session C Json),
      (document.run env m ctx c s).1 =
        .ok (.success v (Cursor.next^[(textOf written).length] c)) ∧
      TextCursor.rest (Cursor.next^[(textOf written).length] c) = [] := by
  have hread : ReadsSpaced C env Inside form v v.tokens := readsSpaced_form hv
  obtain ⟨d, hd, hrest, hform⟩ := hread written hwritten c [] (by rw [List.append_nil, hc])
  have hend : d = Cursor.next^[(textOf written).length] c := by
    rw [← hc]
    exact TextCursor.eq_iterate_next_of_rest_eq_nil hd hrest
  have hdocument : document.Settles env c (.success v d) :=
    settles_zip _ hform.recursive (settles_eof (TextCursor.isEmpty_of_rest_eq_nil hrest))
  obtain ⟨n, hn⟩ := hdocument
  rw [← hend]
  exact ⟨n, fun m hm ctx s => ⟨hn m hm ctx s, hrest⟩⟩

/-! ### An object with a key twice -/

namespace Twice

/-- Nothing has a name. -/
def names : Environment TextPrimitive Json :=
  ⟨fun _ => .dropped, fun _ => .abort "nothing"⟩

/-- Both keys are a double quote. -/
def value : Json :=
  .object [("\"", .array [.null, .bool true]), ("\"", .array [])]

/-- A token with a space behind it. -/
def loose (token : List Char) : Spaced :=
  ⟨[], token, [' '], rfl, rfl⟩

/-- A token with a line feed and a tab in front of it. -/
def indented (token : List Char) : Spaced :=
  ⟨['\n', '\t'], token, [], rfl, rfl⟩

def written : List Spaced :=
  [loose ['{'], indented (quoted "\""), indented [':'], loose ['['], indented "null".toList,
    loose [','], loose "true".toList, loose [']'], loose [','], indented (quoted "\""), loose [':'],
    loose ['['], loose [']'], indented ['}']]

def text : List Char :=
  "\x7b \n\t\"\\\"\"\n\t:[ \n\tnull, true ] , \n\t\"\\\"\": [ ] \n\t\x7d".toList

def start : TextReader :=
  .ofChars text (.lineColumn {}) ⟨0⟩

/-- No number is inside of the value. -/
theorem numberFree_value : value.NumberFree := by
  have helements : ∀ v ∈ [Json.null, .bool true], v.NumberFree :=
    List.forall_mem_cons.mpr ⟨.null, List.forall_mem_singleton.mpr (.bool true)⟩
  have hempty : (Json.array []).NumberFree := .array (List.forall_mem_nil _)
  exact .object (List.forall_mem_cons.mpr
    ⟨.array helements, List.forall_mem_singleton.mpr hempty⟩)

/-- The tokens that are written are those of the value. -/
theorem map_token_written : written.map Spaced.token = value.tokens := by
  simp only [value, tokens, List.map_cons, List.map_nil]
  rfl

/-- The tokens with the white space around them are the text. -/
theorem textOf_written : textOf written = text := by
  decide

end Twice

open Twice in
/-- The value is read back from the text, where its keys repeat. -/
theorem run_document_twice : ∃ n, ∀ ctx s, ∃ d : TextReader,
    (document.run names n ctx start s).1 = .ok (.success value d) ∧ d.rest = [] := by
  have hstart : TextCursor.rest start = textOf written := textOf_written.symm
  obtain ⟨n, hn⟩ := run_document names numberFree_value map_token_written hstart
  exact ⟨n, fun ctx s => ⟨_, hn n (Nat.le_refl n) ctx s⟩⟩

end Parsing.Json
