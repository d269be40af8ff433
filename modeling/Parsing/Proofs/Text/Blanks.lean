import Parsing.Proofs.Grammar.Consumption
import Parsing.Proofs.Grammar.Independence
import Parsing.Proofs.Parser.Readings
import Parsing.Proofs.Recognizer.Unrolled
import Parsing.Proofs.Text.Lexeme

/-!
# White space around expressions

With `lexeme` an expression runs past the white space in front, and a success is moved past the
white space behind it (`Parser.run_lexeme`). Everything else follows from that. Past white space
there is none, so that a second `lexeme` around the first one has nothing left to skip. And how much
white space stands in front cannot be seen from where it ends: the expression runs before the same
text (`Parser.lexeme_ignores_blanks`).
-/

namespace Parsing

open Recognizer Cursor Text

/-! ## Past white space -/

namespace Text

/-- What is left of a text without the white space in front does not begin with any. -/
theorem isBlank_of_head?_trimmed {text : List Char} {t : Char}
    (h : (trimmed text).head? = some t) : isBlank t = false := by
  have hhead := List.head?_dropWhile_not isBlank text
  rw [show (text.dropWhile isBlank).head? = some t from h] at hhead
  simpa using hhead

/-- Behind white space there is none. -/
theorem takeWhile_trimmed (text : List Char) : (trimmed text).takeWhile isBlank = [] := by
  rcases htrimmed : trimmed text with _ | ⟨t, rest⟩
  · rfl
  · have ht : isBlank t = false := isBlank_of_head?_trimmed (congrArg List.head? htrimmed)
    simp [ht]

end Text

/-- The outcome with the cursor behind a success moved. -/
def Outcome.movedOn {C α : Type} (f : C → C) : Outcome C α → Outcome C α
  | .success a c => .success a (f c)
  | .noSuccess r => .noSuccess r

/-- Behind a success that is moved on the same is seen as through the move. -/
theorem Outcome.seen_movedOn {C V L α : Type} (view : C → V) (place : Location → L) (f : C → C)
    (o : Outcome C α) : (o.movedOn f).seen view place = o.seen (view ∘ f) place := by
  cases o <;> rfl

namespace Parser

variable {C ρ α : Type} [TextCursor C] [Cursor.Lawful C] [Cursor.Listed C] [TextCursor.Exact C]
  {env : Environment TextPrimitive ρ} {ctx ctx' : Context TextPrimitive ρ}
  {p : Parser TextPrimitive ρ α} {c d : C}

/-- Passing white space twice is passing it once. -/
theorem pastBlanks_pastBlanks (c : C) : pastBlanks (pastBlanks c) = pastBlanks c := by
  rw [pastBlanks, rest_pastBlanks, takeWhile_trimmed]
  rfl

/-! ## Runs -/

variable (env ctx p) in
/-- Behind the white space in front an expression runs as it does there. -/
theorem run_andThen_spaces (n : ℕ) (c : C) (s : Session C ρ) :
    (andThen spaces p).run env (n + 1) ctx c s = p.run env n ctx (pastBlanks c) s := by
  cases n with
  | zero => rfl
  | succ n =>
    have hspaces : (spaces.eval env (n + 1) ctx c).run s = (.ok (.success _ (pastBlanks c)), s) :=
      run_scan (scan_spaces c) env n ctx s
    change (Recognizer.zip _ (spaces.eval env (n + 1) ctx) (p.eval env (n + 1) ctx) c).run s = _
    rw [Recognizer.zip, Recognizer.chain, run_branch_success hspaces, map_eq_self fun _ => rfl]
    rfl

variable (env ctx p) in
/-- A success is moved past the white space behind it. -/
theorem run_skip_spaces (n : ℕ) (c : C) (s : Session C ρ) :
    (skip p spaces).run env (n + 1) ctx c s =
      ((p.run env n ctx c s).1.map (Outcome.movedOn pastBlanks), (p.run env n ctx c s).2) := by
  rcases hp : p.run env n ctx c s with ⟨halt | ⟨a, d⟩ | r, t⟩
  · change (Recognizer.zip _ (p.eval env n ctx) (spaces.eval env n ctx) c).run s = _
    rw [Recognizer.zip, Recognizer.chain, branch, Effect.run_bind,
      show (p.eval env n ctx c).run s = (.error halt, t) from hp]
    rfl
  · obtain ⟨n, rfl⟩ := exists_eq_succ_of_run hp
    exact run_zip_iff.mpr (.inl ⟨a, d, t, _, hp, run_scan (scan_spaces d) env n ctx t, rfl⟩)
  · exact run_zip_iff.mpr (.inr ⟨r, hp, rfl⟩)

variable (env ctx p) in
/-- A lexeme does what its parser does, and then passes white space. -/
theorem run_lexeme (n : ℕ) (c : C) (s : Session C ρ) :
    (lexeme p).run env (n + 2) ctx c s =
      ((p.run env n ctx (pastBlanks c) s).1.map (Outcome.movedOn pastBlanks),
        (p.run env n ctx (pastBlanks c) s).2) := by
  rw [lexeme, run_skip_spaces, run_andThen_spaces]

/-- A second `lexeme` finds nothing to skip. -/
theorem run_lexeme_lexeme (n : ℕ) (s : Session C ρ) :
    (lexeme (lexeme p)).run env (n + 2) ctx c s = (lexeme p).run env n ctx c s := by
  rw [run_lexeme]
  obtain _ | _ | n := n
  · rfl
  · rfl
  rw [run_lexeme, run_lexeme, pastBlanks_pastBlanks]
  rcases p.run env n ctx (pastBlanks c) s with ⟨halt | ⟨a, d⟩ | r, t⟩
  · rfl
  · change (Except.ok (Outcome.success a (pastBlanks (pastBlanks d))), t) = _
    rw [pastBlanks_pastBlanks]
    rfl
  · rfl

/-- What comes to an outcome in white space comes to one past the white space in front. -/
theorem exists_run_of_run_lexeme {n : ℕ} {s t : Session C ρ} {o : Outcome C α}
    (hrun : (lexeme p).run env n ctx c s = (.ok o, t)) :
    ∃ m o', p.run env m ctx (pastBlanks c) s = (.ok o', t) ∧ o = o'.movedOn pastBlanks := by
  obtain _ | _ | n := n
  · cases hrun
  · cases hrun
  rw [run_lexeme] at hrun
  rcases hp : p.run env n ctx (pastBlanks c) s with ⟨halt | o', t'⟩
  all_goals rw [hp] at hrun
  · cases hrun
  · cases hrun
    exact ⟨n, o', hp, rfl⟩

/-- No white space is left behind a success. -/
theorem isBlank_of_run_lexeme {n : ℕ} {s t : Session C ρ} {a : α} {x : Char}
    (hrun : (lexeme p).run env n ctx c s = (.ok (.success a d), t))
    (hx : (TextCursor.rest d).head? = some x) : isBlank x = false := by
  obtain ⟨m, o, -, ho⟩ := exists_run_of_run_lexeme hrun
  cases o with
  | success a e =>
    cases ho
    rw [rest_pastBlanks] at hx
    exact isBlank_of_head?_trimmed hx
  | noSuccess r => cases ho

/-- What is seen behind passed white space is what is seen without it. -/
theorem map_seen_movedOn_pastBlanks (x : Except Halt (Outcome C α)) :
    (x.map (Outcome.movedOn pastBlanks)).map (Outcome.seen TextCursor.rest fun _ => ()) =
      x.map (Outcome.seen (fun e => trimmed (TextCursor.rest e)) fun _ => ()) := by
  have hview : TextCursor.rest ∘ pastBlanks = fun e : C => trimmed (TextCursor.rest e) :=
    funext rest_pastBlanks
  cases x with
  | error halt => rfl
  | ok o =>
    change Except.ok ((o.movedOn pastBlanks).seen TextCursor.rest _) = _
    rw [Outcome.seen_movedOn, hview]
    rfl

/-- Wherever the same text is left, apart from white space in front, the same is seen. -/
theorem map_seen_run_lexeme [TextCursor.Uniform C] (henv : env.All NoSpan) (hp : p.All NoSpan)
    (hscope : ctx.scope.All NoSpan) (hbodies : ctx.scope.bodies = ctx'.scope.bodies)
    (hrest : trimmed (TextCursor.rest c) = trimmed (TextCursor.rest d)) (n : ℕ)
    {s t : Session C ρ} (hs : s.Unseen (Cursor.input c)) (ht : t.Unseen (Cursor.input d)) :
    ((lexeme p).run env n ctx c s).1.map (Outcome.seen TextCursor.rest fun _ => ()) =
      ((lexeme p).run env n ctx' d t).1.map (Outcome.seen TextCursor.rest fun _ => ()) := by
  obtain _ | _ | n := n
  · rfl
  · rfl
  have htokens : Listed.tokens (pastBlanks c) = Listed.tokens (pastBlanks d) := by
    rw [← TextCursor.Exact.rest_eq, ← TextCursor.Exact.rest_eq, rest_pastBlanks, rest_pastBlanks,
      hrest]
  have hinput (e : C) : Cursor.input (pastBlanks e) = Cursor.input e :=
    After.input_eq ⟨_, rfl⟩
  have hends := ends_in_context htokens (henv.imp fun _ => NoSpan.suits_along htokens) hbodies
    (hscope.imp fun _ => NoSpan.suits_along htokens) (hp.imp fun _ => NoSpan.suits_along htokens)
    ((hinput c).symm ▸ hs) ((hinput d).symm ▸ ht) n
  rw [run_lexeme, run_lexeme, map_seen_movedOn_pastBlanks, map_seen_movedOn_pastBlanks]
  refine map_seen_of_ends hends (fun m => ?_) fun _ => rfl
  rw [TextCursor.Exact.rest_eq, TextCursor.Exact.rest_eq, tokens_iterate_eq htokens]

/-- A report of an expression in white space names a place past the white space in front. -/
theorem exists_location_of_run_lexeme [TextCursor.Lawful C] {I : Inputs C} {n : ℕ}
    {s t : Session C ρ} {r : NoSuccess} (hs : Session.Reached (π := TextPrimitive) I s)
    (hc : I.Has c) (hrun : (lexeme p).run env n ctx c s = (.ok (.noSuccess r), t)) :
    ∃ k, ((TextCursor.rest c).takeWhile isBlank).length ≤ k ∧ k ≤ (TextCursor.rest c).length ∧
      r.location = Cursor.location (Cursor.next^[k] c) := by
  obtain ⟨m, o, hp, ho⟩ := exists_run_of_run_lexeme hrun
  cases o with
  | success a d => cases ho
  | noSuccess r =>
    cases ho
    have hpast : I.Has (pastBlanks c) := hc.after ⟨_, rfl⟩
    obtain ⟨d, hafter, hl⟩ : ∃ d, After (pastBlanks c) d ∧ r.location = Cursor.location d :=
      hs.located hpast hp
    obtain ⟨j, hj, rfl⟩ := hafter.exists_le_remaining
    rw [← TextCursor.length_rest, pastBlanks, TextCursor.rest_iterate_next, List.length_drop] at hj
    have hle := (List.takeWhile_sublist isBlank (l := TextCursor.rest c)).length_le
    refine ⟨j + ((TextCursor.rest c).takeWhile isBlank).length, by omega, by omega, ?_⟩
    rw [hl, pastBlanks, Function.iterate_add_apply]

/-- For any expression in white space,
* it does what the expression does past the white space in front, and a success ends past the white
  space behind;
* white space around that changes nothing at all, but for two more levels of depth;
* no white space is left behind a success;
* what does not succeed is reported past the white space in front;
* any white space may stand in front: as long as there are no spans, it comes to the same value
  before the same text, or it does not succeed for the same reason, as without it. That is so step
  for step, and stopping alike, where nothing has been parsed before, and for whatever it comes to
  whatever was parsed before. -/
theorem lexeme_ignores_blanks [TextCursor.Lawful C] [TextCursor.Uniform C]
    (env : Environment TextPrimitive ρ) (p : Parser TextPrimitive ρ α) :
    (∀ (n : ℕ) (ctx : Context TextPrimitive ρ) (c : C) (s : Session C ρ),
      (lexeme p).run env (n + 2) ctx c s =
        ((p.run env n ctx (pastBlanks c) s).1.map (Outcome.movedOn pastBlanks),
          (p.run env n ctx (pastBlanks c) s).2)) ∧
    (∀ (n : ℕ) (ctx : Context TextPrimitive ρ) (c : C) (s : Session C ρ),
      (lexeme (lexeme p)).run env (n + 2) ctx c s = (lexeme p).run env n ctx c s) ∧
    (∀ (n : ℕ) (ctx : Context TextPrimitive ρ) (c d : C) (s t : Session C ρ) (a : α),
      (lexeme p).run env n ctx c s = (.ok (.success a d), t) →
        ∀ x ∈ (TextCursor.rest d).head?, isBlank x = false) ∧
    (∀ (I : Inputs C) (n : ℕ) (ctx : Context TextPrimitive ρ) (c : C) (s t : Session C ρ)
      (r : NoSuccess), Session.Reached (π := TextPrimitive) I s → I.Has c →
        (lexeme p).run env n ctx c s = (.ok (.noSuccess r), t) →
          ∃ k, ((TextCursor.rest c).takeWhile isBlank).length ≤ k ∧
            k ≤ (TextCursor.rest c).length ∧
            r.location = Cursor.location (Cursor.next^[k] c)) ∧
    (env.All NoSpan → p.All NoSpan → ∀ ctx ctx' : Context TextPrimitive ρ,
      ctx.scope.All NoSpan → ctx.scope.bodies = ctx'.scope.bodies →
      ∀ (blanks : List Char) (c d : C), blanks.all isBlank →
        TextCursor.rest c = blanks ++ TextCursor.rest d →
          (∀ (n : ℕ) (s t : Session C ρ), s.Unseen (Cursor.input c) → t.Unseen (Cursor.input d) →
            ((lexeme p).run env n ctx c s).1.map (Outcome.seen TextCursor.rest fun _ => ()) =
              ((lexeme p).run env n ctx' d t).1.map (Outcome.seen TextCursor.rest fun _ => ())) ∧
          ∀ (I : Inputs C) (g g' : GrammarParser) (s t : Session C ρ), I.Has c → I.Has d →
            GrammarParser.Reachable I env g s → GrammarParser.Reachable I env g' t →
              ∀ x, (∃ o, (lexeme p).RunsTo env ctx c s o ∧
                  o.seen TextCursor.rest (fun _ => ()) = x) ↔
                ∃ o, (lexeme p).RunsTo env ctx' d t o ∧
                  o.seen TextCursor.rest (fun _ => ()) = x) := by
  refine ⟨fun n ctx => run_lexeme env ctx p n, fun n ctx c s => run_lexeme_lexeme n s, ?_, ?_, ?_⟩
  · exact fun n ctx c d s t a hrun x hx => isBlank_of_run_lexeme hrun hx
  · exact fun I n ctx c s t r hs hc hrun => exists_location_of_run_lexeme hs hc hrun
  intro henv hp ctx ctx' hscope hbodies blanks c d hblanks hrest
  have htrimmed : trimmed (TextCursor.rest c) = trimmed (TextCursor.rest d) := by
    rw [hrest, trimmed_append hblanks]
  refine ⟨fun n s t => map_seen_run_lexeme henv hp hscope hbodies htrimmed n, ?_⟩
  intro I g g' s t hc hd hs ht x
  have hstart (n : ℕ) := map_seen_run_lexeme henv hp hscope hbodies htrimmed n
    (Session.unseen_empty _) (Session.unseen_empty _)
  exact GrammarParser.Reachable.exists_runsTo_iff hstart hs ht hc hd

/-! ### A mark on the second line -/

namespace NarrowSpaces

/-- A space where no line may break, the end of a line, and a mark with spaces around it. -/
def text : List Char :=
  ['\u00a0', '\n', 'a', ' ', '!', ' ', 'x']

def inputs : Inputs TextReader :=
  ⟨fun i => .ofChars text (.lineColumn {}) i, fun _ => rfl⟩

def start : TextReader :=
  inputs.start ⟨0⟩

/-- What comes behind the mark and the space. -/
def afterMark : TextReader :=
  ⟨text, ['x'], 7, .lineColumn ⟨2, 4⟩, ⟨0⟩⟩

end NarrowSpaces

open Exclamations (rules counting all_rules) in
open NarrowSpaces in
/-- On the second line are two characters in front of the mark, and there is no other mark. What was
counted from there first, without any white space in front, is counted from the start, too. -/
theorem lexeme_ignores_blanks_narrowSpaces :
    ((lexeme (lexeme (skip counting (literal "!")))).run rules 12 {} start {}).1 =
      .ok (.success 2 afterMark) ∧
    isBlank 'x' = false ∧
    (∃ k, 2 ≤ k ∧ k ≤ 7 ∧ .lineColumn ⟨2, 2⟩ = Cursor.location (Cursor.next^[k] start)) ∧
    ∃ o, (lexeme (skip counting (literal "!"))).RunsTo rules {} start
        ((lexeme (skip counting (literal "!"))).run rules 12 {} (Cursor.next^[2] start) {}).2 o ∧
      o.seen TextCursor.rest (fun _ => ()) = .ok (2, ['x']) := by
  have hrules : (rules (π := TextPrimitive)).All NoSpan := all_rules ⟨trivial, trivial, trivial⟩
  have hp : (skip counting (literal "!") : Parser TextPrimitive Nat Nat).All NoSpan :=
    ⟨trivial, trivial, trivial⟩
  have hscope : ({} : Context TextPrimitive Nat).scope.All NoSpan := Scope.all_nil
  have hstart : inputs.Has start := inputs.has_start ⟨0⟩
  have hline : inputs.Has (Cursor.next^[2] start) := ⟨2, rfl⟩
  have hnothing : GrammarParser.Reachable inputs (rules (π := TextPrimitive))
      ⟨⟨⟨0⟩, "count"⟩, [], none⟩ {} := .start rfl
  have hfirst : (lexeme (skip counting (literal "!"))).run rules 12 {} (Cursor.next^[2] start) {} =
      (.ok (.success 2 afterMark), _) := rfl
  obtain ⟨-, hagain, hbehind, -, hblanks⟩ :=
    lexeme_ignores_blanks (C := TextReader) rules (skip counting (literal "!"))
  obtain ⟨-, -, -, hplace, -⟩ :=
    lexeme_ignores_blanks (C := TextReader) rules (skip counting (char '?'))
  refine ⟨(congrArg Prod.fst (hagain 10 {} start {})).trans rfl,
    hbehind 12 {} start afterMark {} _ 2 rfl 'x' rfl, ?_, ?_⟩
  · exact hplace inputs 12 {} start {} _ (.failure "'?'" (.lineColumn ⟨2, 2⟩)) (.start rfl) hstart
      rfl
  · obtain ⟨-, hany⟩ := hblanks hrules hp {} {} hscope rfl ['\u00a0', '\n'] start
      (Cursor.next^[2] start) (by decide) rfl
    exact (hany inputs _ _ _ {} hstart hline (hnothing.run hline hfirst) hnothing _).mpr
      ⟨.success 2 afterMark, .of_run (n := 12) rfl, rfl⟩

end Parser

end Parsing
