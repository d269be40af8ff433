import Parsing.Proofs.Cursor.Steps
import Parsing.Proofs.Parser.Lockstep
import Parsing.Proofs.Text.Whole

/-!
# All kinds of cursors agree

A text can be read with moves of its own or with those that any reader of a text derives from single
steps, with one kind of locations or another, and as a list of characters. Expressions without spans
cannot tell: they come to the same outcome, up to what the cursors count differently
(`Parser.runs_agree`). All these readers pass the same characters one by one, so that runs go in
lockstep along them (`Parser.ends_along`). What is left to be shown is that a move by bytes is a
number of single steps, the same on both sides.
-/

namespace Parsing

open Recognizer Cursor

/-! ## Primitive parsers -/

section Primitives

variable {α : Type}

/-- A test on one token agrees from both sides. -/
theorem Pairing.agrees_test {C D T : Type} [Cursor C T] [Cursor D T] (K : Pairing C D)
    (test : TokenTest T α) : K.Agrees test := by
  intro c d h
  cases test with
  | satisfy expected accepts =>
    have hfail : Ends (Outcome.Lockstep c d) (fail (m := Except Halt) (α := α) expected c)
        (fail (m := Except Halt) expected d) :=
      .value (Outcome.lockstep_report .failure expected c d)
    change Ends _ (satisfy (m := Except Halt) expected accepts c)
      (satisfy (m := Except Halt) expected accepts d)
    rw [satisfy, satisfy, K.current_eq h]
    split
    · split
      · exact .value (.success _ (inStep_next c d))
      · exact hfail
    · exact hfail

/-- Scanners read the same from the same text, and go in lockstep if the moves do. -/
theorem ends_scan {C D : Type} [TextCursor C] [TextCursor D] {c : C} {d : D} {s : Scanner α}
    (hrest : TextCursor.rest c = TextCursor.rest d)
    (hmove : ∀ a n, s.scan (TextCursor.rest c) = some (a, n) →
      Option.Rel (InStep c d) (TextCursor.advanceBytes c n) (TextCursor.advanceBytes d n)) :
    Ends (Outcome.Lockstep c d) (scan (m := Except Halt) s c) (scan (m := Except Halt) s d) := by
  rw [scan, scan, ← hrest]
  rcases hscan : s.scan (TextCursor.rest c) with _ | ⟨a, n⟩
  · exact .value (Outcome.lockstep_report .failure s.expected c d)
  · have hrel := hmove a n hscan
    simp only
    generalize TextCursor.advanceBytes c n = x at hrel
    generalize TextCursor.advanceBytes d n = y at hrel
    cases hrel with
    | some hstep => exact .value (.success a hstep)
    | none => exact .halt .brokenCharacter

/-- What takes whole characters moves equally far along the same text. -/
theorem Pairing.agrees_scan {C D : Type} [TextCursor C] [TextCursor D] [Cursor.Lawful C]
    [Cursor.Lawful D] [Cursor.Listed C] [Cursor.Listed D] [TextCursor.Exact C] [TextCursor.Exact D]
    {c₀ : C} {d₀ : D} (h : Listed.tokens c₀ = Listed.tokens d₀) (s : Scanner α) [s.Whole] :
    (along c₀ d₀ h).Agrees (TextPrimitive.scan s) := by
  rintro _ _ ⟨k, rfl, rfl⟩
  have hrest : TextCursor.rest (Cursor.next^[k] c₀) = TextCursor.rest (Cursor.next^[k] d₀) := by
    rw [TextCursor.Exact.rest_eq, TextCursor.Exact.rest_eq, tokens_iterate_eq h]
  refine ends_scan hrest fun a n hscan => ?_
  obtain ⟨read, ⟨rest, hread⟩, rfl⟩ := Scanner.Whole.wholeBytes hscan
  rw [TextCursor.Exact.advanceBytes_append hread.symm,
    TextCursor.Exact.advanceBytes_append (hrest.symm.trans hread.symm)]
  exact .some ⟨read.length, rfl, rfl⟩

/-- Before the same text, two cursors of one kind move equally far. -/
theorem Pairing.agrees_uniform {C : Type} [TextCursor C] [Cursor.Lawful C] [Cursor.Listed C]
    [TextCursor.Exact C] [TextCursor.Uniform C] {c₀ d₀ : C}
    (h : Listed.tokens c₀ = Listed.tokens d₀) (x : TextPrimitive α) :
    (along c₀ d₀ h).Agrees x := by
  rcases x with test | s
  · exact (along c₀ d₀ h).agrees_test test
  · rintro c d ⟨k, rfl, rfl⟩
    have hrest : TextCursor.rest (Cursor.next^[k] c₀) = TextCursor.rest (Cursor.next^[k] d₀) := by
      rw [TextCursor.Exact.rest_eq, TextCursor.Exact.rest_eq, tokens_iterate_eq h]
    exact ends_scan hrest fun a n _ => TextCursor.Uniform.rel_advanceBytes hrest n

/-- Every primitive parser agrees on two readers with the same characters left. -/
theorem Pairing.agrees_textReader {c₀ d₀ : TextReader}
    (h : Listed.tokens c₀ = Listed.tokens d₀) (x : TextPrimitive α) :
    (along c₀ d₀ h).Agrees x :=
  agrees_uniform h x

end Primitives

/-! ## Expressions -/

/-- What can be seen of an outcome, through a view of cursors and a view of locations. -/
def Outcome.seen {C V L α : Type} (view : C → V) (place : Location → L) :
    Outcome C α → Except (Severity × String × L) (α × V)
  | .success a c => .ok (a, view c)
  | .noSuccess r => .error (r.severity, r.expected, place r.location)

/-- What is seen of both outcomes is the same, through views that see the same of cursors in
step. -/
theorem map_seen_of_ends {C D T V L α : Type} [Cursor C T] [Cursor D T] {c : C} {d : D}
    {x : Except Halt (Outcome C α)} {y : Except Halt (Outcome D α)}
    (h : Ends (Outcome.Lockstep c d) x y) {view : C → V} {view' : D → V} {place : Location → L}
    (hview : ∀ n, view (Cursor.next^[n] c) = view' (Cursor.next^[n] d))
    (hplace : ∀ n, place (Cursor.location (Cursor.next^[n] c)) =
      place (Cursor.location (Cursor.next^[n] d))) :
    x.map (Outcome.seen view place) = y.map (Outcome.seen view' place) := by
  cases h with
  | halt halt => rfl
  | value ho =>
    cases ho with
    | success a hstep =>
      obtain ⟨n, rfl, rfl⟩ := hstep
      change Except.ok (Except.ok (a, _)) = Except.ok (Except.ok (a, _))
      rw [hview]
    | @noSuccess r r' _ _ hseverity hexpected hstep hl hl' =>
      obtain ⟨n, rfl, rfl⟩ := hstep
      change Except.ok (Except.error (r.severity, r.expected, place r.location)) =
        Except.ok (Except.error (r'.severity, r'.expected, place r'.location))
      rw [hseverity, hexpected, hl, hl', hplace]

/-- Whether no rule has seen an input. -/
def Session.Unseen {C ρ : Type} (s : Session C ρ) (i : InputId) : Prop :=
  ∀ r, (s.memo r).input ≠ some i

/-- At first no input was seen. -/
theorem Session.unseen_empty {C ρ : Type} (i : InputId) : ({} : Session C ρ).Unseen i :=
  fun _ => (Option.some_ne_none i).symm

namespace Parser

/-- Whether an expression is none for spans. -/
def NoSpan {π : Type → Type} {ρ α : Type} : Parser π ρ α → Prop
  | .withSpan _ => False
  | _ => True

/-- Whether an expression takes whole characters only. -/
def ScansWhole {ρ α : Type} : Parser TextPrimitive ρ α → Prop
  | .primitive (.scan s) => s.Whole
  | _ => True

/-- Before the same text, nothing but spans tells two cursors of one kind apart. -/
theorem NoSpan.suits_along {C ρ α : Type} [TextCursor C] [Cursor.Lawful C] [Cursor.Listed C]
    [TextCursor.Exact C] [TextCursor.Uniform C] {c d : C} (h : Listed.tokens c = Listed.tokens d)
    {p : Parser TextPrimitive ρ α} (hp : p.NoSpan) : (Pairing.along c d h).Suits p := by
  cases p with
  | primitive x => exact Pairing.agrees_uniform h x
  | withSpan p => exact hp.elim
  | _ => trivial

section Along

variable {π : Type → Type} {C D T ρ α : Type} [Cursor C T] [Cursor D T] [Newline T]
  [Cursor.Lawful C] [Cursor.Lawful D] [Cursor.Listed C] [Cursor.Listed D] [Primitive π]
  [Primitive.Runs π C] [Primitive.Runs π D] {env : Environment π ρ} {p : Parser π ρ α} {c : C}
  {d : D} {s : Session C ρ} {t : Session D ρ}

/-- Runs go in lockstep along the same tokens, if no rule has seen them before. -/
theorem ends_in_context {ctx ctx' : Context π ρ} (h : Listed.tokens c = Listed.tokens d)
    (henv : env.All (Pairing.along c d h).Suits)
    (hscope : ctx.scope.bodies = ctx'.scope.bodies)
    (hall : ctx.scope.All (Pairing.along c d h).Suits) (hp : p.All (Pairing.along c d h).Suits)
    (hs : s.Unseen (Cursor.input c)) (ht : t.Unseen (Cursor.input d)) (fuel : Nat) :
    Ends (Outcome.Lockstep c d) (p.run env fuel ctx c s).1 (p.run env fuel ctx' d t).1 := by
  refine (eval_tandem henv fuel hscope hall hp (InStep.refl c d) s t (.of_unseen ?_ ?_)).1
  · intro e f hstep r
    have hinput := hstep.after_left.input_eq
    exact fun hseen => hs r (hseen.trans (congrArg some hinput))
  · intro e f hstep r
    have hinput := hstep.after_right.input_eq
    exact fun hseen => ht r (hseen.trans (congrArg some hinput))

/-- Two runs on inputs with the same tokens end alike. -/
theorem ends_along (h : Listed.tokens c = Listed.tokens d)
    (henv : env.All (Pairing.along c d h).Suits) (hp : p.All (Pairing.along c d h).Suits)
    (hs : s.Unseen (Cursor.input c)) (ht : t.Unseen (Cursor.input d)) (fuel : Nat) :
    Ends (Outcome.Lockstep c d) (p.run env fuel {} c s).1 (p.run env fuel {} d t).1 :=
  ends_in_context h henv rfl Scope.all_nil hp hs ht fuel

end Along

/-- An expression for no spans comes to the same outcome
* with the moves of a text's own reader and with those derived from single steps, if it takes whole
  characters, which is what a move by bytes asks for;
* with any two kinds of locations, apart from the locations;
* if it is made of tests on single characters, with the text as a list of characters, where the
  bytes before the one cursor are those of the characters that the other one has passed. -/
theorem runs_agree {ρ α : Type} (fuel : Nat) :
    (∀ (env : Environment TextPrimitive ρ) (p : Parser TextPrimitive ρ α),
      env.All (fun q => q.NoSpan ∧ q.ScansWhole) → p.All (fun q => q.NoSpan ∧ q.ScansWhole) →
      ∀ (c : TextReader) (s : Session TextReader ρ) (t : Session PlainReader ρ),
        s.Unseen c.input → t.Unseen c.input →
          (p.run env fuel {} c s).1.map (Outcome.seen id id) =
            (p.run env fuel {} (PlainReader.mk c) t).1.map (Outcome.seen PlainReader.inner id)) ∧
    (∀ (env : Environment TextPrimitive ρ) (p : Parser TextPrimitive ρ α),
      env.All NoSpan → p.All NoSpan → ∀ (c d : TextReader) (s t : Session TextReader ρ),
        c.rest = d.rest → c.position = d.position → s.Unseen c.input → t.Unseen d.input →
          (p.run env fuel {} c s).1.map
              (Outcome.seen (fun e => (e.position, e.rest)) fun _ => ()) =
            (p.run env fuel {} d t).1.map
              (Outcome.seen (fun e => (e.position, e.rest)) fun _ => ())) ∧
    ∀ (env : Environment (TokenTest Char) ρ) (p : Parser (TokenTest Char) ρ α),
      env.All NoSpan → p.All NoSpan → ∀ (c : TextReader) (d : TokenReader Char)
        (s : Session TextReader ρ) (t : Session (TokenReader Char) ρ),
        c.rest = d.rest → c.location = d.location → s.Unseen c.input → t.Unseen d.input →
          (p.run env fuel {} c s).1.map (Outcome.seen (fun e => (e.location, e.rest)) id) =
            (p.run env fuel {} d t).1.map (Outcome.seen (fun f => (f.location, f.rest)) id) ∧
          ∀ a e b f, (p.run env fuel {} c s).1 = .ok (.success a e) →
            (p.run env fuel {} d t).1 = .ok (.success b f) →
              e.position = c.position + byteLength (d.rest.take (f.position - d.position)) := by
  refine ⟨fun env p henv hp c s t hs ht => ?_,
    fun env p henv hp c d s t hrest hposition hs ht => ?_,
    fun env p henv hp c d s t hrest hlocation hs ht => ?_⟩
  · -- derived moves: the pairs of a reader and the same reader without moves of its own
    have htokens : Listed.tokens c = Listed.tokens (PlainReader.mk c) := rfl
    have hsuits {β : Type} (q : Parser TextPrimitive ρ β) (hq : q.NoSpan ∧ q.ScansWhole) :
        (Pairing.along c (PlainReader.mk c) htokens).Suits q := by
      cases q with
      | primitive x =>
        rcases x with test | scanner
        · exact Pairing.agrees_test _ test
        · have hwhole : scanner.Whole := hq.2
          exact Pairing.agrees_scan htokens scanner
      | withSpan q => exact hq.1.elim
      | _ => trivial
    refine map_seen_of_ends (ends_along htokens (henv.imp hsuits) (hp.imp hsuits) hs ht fuel)
      (fun n => ?_) fun n => ?_
    · rw [PlainReader.iterate_next]
      rfl
    · rw [PlainReader.iterate_next]
      rfl
  · -- other locations: what is seen are positions and texts, which are the same after equal steps
    have hsuits {β : Type} (q : Parser TextPrimitive ρ β) (hq : q.NoSpan) :
        (Pairing.along c d hrest).Suits q := by
      cases q with
      | primitive x => exact Pairing.agrees_textReader hrest x
      | withSpan q => exact hq.elim
      | _ => trivial
    refine map_seen_of_ends (ends_along hrest (henv.imp hsuits) (hp.imp hsuits) hs ht fuel)
      (fun n => ?_) fun _ => rfl
    have htokens : (Cursor.next^[n] c).rest = (Cursor.next^[n] d).rest :=
      tokens_iterate_eq (c := c) (d := d) hrest n
    rw [htokens, TextReader.position_iterate_next, TextReader.position_iterate_next, hrest,
      hposition]
  · -- a list of characters: the locations begin equal and move over the same characters
    have hsuits {β : Type} (q : Parser (TokenTest Char) ρ β) (hq : q.NoSpan) :
        (Pairing.along c d hrest).Suits q := by
      cases q with
      | primitive x => exact Pairing.agrees_test _ x
      | withSpan q => exact hq.elim
      | _ => trivial
    have hends := ends_along hrest (henv.imp hsuits) (hp.imp hsuits) hs ht fuel
    have hlocations (n : ℕ) : Cursor.location (Cursor.next^[n] c) =
        Cursor.location (Cursor.next^[n] d) := by
      rw [location_iterate_next, location_iterate_next]
      exact congr (congrArg Location.advanceBy hlocation) (congrArg (List.take n) hrest)
    constructor
    · refine map_seen_of_ends hends (fun n => ?_) hlocations
      exact Prod.ext (hlocations n) (tokens_iterate_eq (c := c) (d := d) hrest n)
    · intro a e b f he hf
      rw [he, hf] at hends
      cases hends with
      | value ho =>
        cases ho with
        | success a hstep =>
          obtain ⟨n, rfl, rfl⟩ := hstep
          rw [TextReader.position_iterate_next, TokenReader.position_iterate_next, hrest,
            Nat.add_sub_cancel_left, List.length_take, ← List.take_eq_take_min]

/-! ### A text of two lines -/

namespace Exclamations

variable {π : Type → Type} [HasTokenTests π Char]

/-- How many characters there are up to an exclamation mark. -/
def count : Parser π Nat Nat :=
  .map List.length (.many (.satisfy "a character" (· != '!')))

/-- Every rule counts, and remembers what it counted. -/
def rules : Environment π Nat :=
  ⟨fun _ => .bound true ⟨0⟩ count, fun _ => count⟩

def counting : Parser π Nat Nat :=
  .rule ⟨⟨0⟩, "count"⟩

def text : List Char :=
  ['é', '\n', '!', 'x']

theorem all_rules {P : ∀ {β : Type}, Parser π Nat β → Prop} (h : (count (π := π)).All P) :
    (rules (π := π)).All P := by
  constructor
  · intro r packrat build body hbound
    cases hbound
    exact h
  · exact fun _ => h

theorem unseen {C : Type} (i : InputId) : ({} : Session C Nat).Unseen i :=
  Session.unseen_empty i

end Exclamations

open Exclamations in
/-- The first line ends behind a character of two bytes. -/
theorem runs_agree_exclamations :
    ((skip counting (literal "!")).run rules 8 {}
        (PlainReader.mk (.ofChars text (.lineColumn {}) ⟨0⟩)) {}).1.map
      (Outcome.seen PlainReader.inner id) =
        .ok (.ok (2, ⟨text, ['x'], 4, .lineColumn ⟨2, 1⟩, ⟨0⟩⟩)) ∧
    ((skip counting (literal "!")).run rules 8 {}
        (TextReader.ofChars text (.offset 0) ⟨1⟩) {}).1.map
      (Outcome.seen (fun e => (e.position, e.rest)) fun _ => ()) = .ok (.ok (2, 4, ['x'])) ∧
    ((skip counting (.char '!')).run (rules (π := TokenTest Char)) 8 {}
        (TokenReader.ofList text (.lineColumn {}) ⟨2⟩) {}).1.map
      (Outcome.seen (fun f => (f.location, f.rest)) id) =
        .ok (.ok (2, .lineColumn ⟨2, 1⟩, ['x'])) ∧
    4 = 0 + byteLength (text.take (3 - 0)) := by
  have hspans : (skip counting (.char '!') : Parser (TokenTest Char) Nat Nat).All NoSpan :=
    ⟨trivial, trivial, trivial⟩
  have hrules' : (rules (π := TokenTest Char)).All NoSpan := all_rules ⟨trivial, trivial, trivial⟩
  have hscans : (skip counting (literal "!")).All fun q => q.NoSpan ∧ q.ScansWhole :=
    ⟨⟨trivial, trivial⟩, ⟨trivial, trivial⟩, trivial, inferInstanceAs (Scanner.literal "!").Whole⟩
  have hrules : (rules (π := TextPrimitive)).All fun q => q.NoSpan ∧ q.ScansWhole :=
    all_rules ⟨⟨trivial, trivial⟩, ⟨trivial, trivial⟩, trivial, trivial⟩
  obtain ⟨hmoves, hplaces, htokens⟩ := runs_agree (ρ := Nat) (α := Nat) 8
  have hmoves := hmoves rules _ hrules hscans (.ofChars text (.lineColumn {}) ⟨0⟩) {} {}
    (unseen _) (unseen _)
  have hplaces := hplaces rules _ (hrules.imp fun q hq => hq.1) (hscans.imp fun q hq => hq.1)
    (.ofChars text (.lineColumn {}) ⟨0⟩) (.ofChars text (.offset 0) ⟨1⟩) {} {} rfl rfl
    (unseen _) (unseen _)
  have htokens := htokens rules _ hrules' hspans (.ofChars text (.lineColumn {}) ⟨0⟩)
    (.ofList text (.lineColumn {}) ⟨2⟩) {} {} rfl rfl (unseen _) (unseen _)
  refine ⟨hmoves.symm.trans rfl, hplaces.symm.trans rfl, htokens.1.symm.trans rfl, ?_⟩
  exact htokens.2 2 ⟨text, ['x'], 4, .lineColumn ⟨2, 1⟩, ⟨0⟩⟩ 2
    ⟨text, ['x'], 3, .lineColumn ⟨2, 1⟩, ⟨2⟩⟩ rfl rfl

end Parser

end Parsing
