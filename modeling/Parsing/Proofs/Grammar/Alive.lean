import Parsing.Proofs.Grammar.History
import Parsing.Proofs.Grammar.LifeCycle
import Parsing.Proofs.Parser.Conduct
import Parsing.Proofs.Parser.Lockstep

/-!
# Rules that are alive

A run stops at a rule that has no parser yet, and reports an error at a rule whose grammar is gone.
Which rules these can be is a matter of the rules that expressions refer to (`Parser.Refers`): the
reports name rules that may be used and that are not bound, or not alive (`Conduct.naming`). What
rules remember from earlier runs is no exception, as long as they were alive in these as well
(`Session.Life`).

For a grammar that was drafted and finished it follows that none of its own rules is ever reported,
along with all that is to be said about the steps that led to it (`Drafted.life_cycle`).
-/

namespace Parsing

open Recognizer

/-! ## Expressions and the rules that they refer to -/

/-- The report of a rule whose grammar is gone. -/
def droppedText (name : String) : String :=
  "rule `" ++ name ++ "` used after its grammar was dropped"

/-- The report of a rule whose grammar is gone tells the name of the rule. -/
theorem droppedText_inj {name name' : String} (h : droppedText name = droppedText name') :
    name = name' := by
  simpa [droppedText, ← String.toList_inj] using h

/-- The report begins like no other one. -/
theorem droppedText_ne {text : String} (h : text.toList.take 4 ≠ ['r', 'u', 'l', 'e'])
    (name : String) : text ≠ droppedText name := by
  rintro rfl
  exact h (by simp [droppedText])

section

variable {π : Type → Type} {ρ α : Type}

/-- Whether an expression, apart from its parts, uses certain rules only, and reports none but
certain names as those of rules whose grammar is gone. -/
def Parser.Refers (M : Rule → Prop) (names : String → Prop) : Parser π ρ α → Prop
  | .rule r => M r
  | .abort expected => ∀ name, expected = droppedText name → names name
  | _ => True

/-- Whether all that names stand for, if certain rules are used only, uses no others. -/
structure Environment.Refers (env : Environment π ρ) (M : Rule → Prop) (names : String → Prop) :
    Prop where
  rule {r : Rule} {packrat : Bool} {build : BuildId} {body : Parser π ρ ρ} : M r →
    env.rule r.id = .bound packrat build body → body.All (Parser.Refers M names)
  definition (name : String) : (env.definition name).All (Parser.Refers M names)

/-- Using certain rules only; `unbound` and `dropped` are the names of those that may have no
parser, or may be gone. -/
def Conduct.naming (π : Type → Type) (ρ : Type) (M : Rule → Prop)
    (unbound dropped : String → Prop) :
    Conduct π ρ where
  asks scope p := scope.All (Parser.Refers M dropped) ∧ p.All (Parser.Refers M dropped)
  stops halt := ∀ name, halt = .unboundRule name → unbound name
  errors text := ∀ name, text = droppedText name → dropped name
  memos id := ∃ r, M r ∧ r.id = id
  stops_outOfFuel _ h := nomatch h
  stops_brokenCharacter _ h := nomatch h

/-- Expressions that use certain rules only keep to their use, whatever these rules stand for. -/
theorem Conduct.KeptBy.of_refers {M : Rule → Prop} {unbound dropped : String → Prop}
    {env : Environment π ρ} (henv : env.Refers M dropped)
    (hunbound : ∀ r, M r → env.rule r.id = .unbound → unbound r.name)
    (hdropped : ∀ r, M r → env.rule r.id = .dropped → dropped r.name) :
    (Conduct.naming π ρ M unbound dropped).KeptBy env where
  part hp _ := hp.2.eachPart.imp fun _ hq => ⟨hp.1, hq⟩
  abort hp := hp.2
  recursive _ hp := ⟨hp.1.cons hp.2.2, hp.2.2⟩
  self {scope name} hp := by
    split
    · exact fun name h => absurd h (droppedText_ne (by decide) name)
    · exact fun name h => absurd h (droppedText_ne (by decide) name)
    · exact hp.1.of_startingAt ‹_›
  define _ := ⟨Scope.all_nil, henv.definition _⟩
  rule {scope r} hp := by
    have hr : M r := hp.2.self
    split
    · intro name hname
      rw [← droppedText_inj hname]
      exact hdropped r hr ‹_›
    · intro name hname
      rw [← Halt.unboundRule.inj hname]
      exact hunbound r hr ‹_›
    · refine ⟨⟨Scope.all_nil, henv.rule hr ‹_›⟩, fun _ => ⟨⟨r, hr, rfl⟩, fun name h => ?_⟩⟩
      exact absurd h (droppedText_ne (by decide) name)

end

/-! ## Runs -/

/-- Whether a name is that of a rule that may be used and is none of those kept. -/
def Foreign (M : Rule → Prop) (kept : List RuleId) (name : String) : Prop :=
  ∃ r, M r ∧ r.id ∉ kept ∧ r.name = name

section Runs

variable {π : Type → Type} {C T ρ α : Type} [Cursor C T] [Primitive π] [Primitive.Runs π C]

/-- The states that runs lead to which use certain rules only, and while some rules are kept. -/
inductive Session.Life (kept : List RuleId) : (Rule → Prop) → Session C ρ → Prop where
  /-- At first the rules know nothing. -/
  | start {M : Rule → Prop} {s : Session C ρ} (h : ∀ r, M r → ∀ key, s.lookup r.id key = none) :
    Life kept M s
  /-- Rules may come into use that know nothing yet. -/
  | widen {M M' : Rule → Prop} {s : Session C ρ} (h : Life kept M s) (hM : ∀ r, M r → M' r)
    (hnew : ∀ r, M' r → M r ∨ ∀ key, s.lookup r.id key = none) : Life kept M' s
  | run {M : Rule → Prop} {s : Session C ρ} (h : Life kept M s) {env : Environment π ρ}
    (hkept : ∀ r, M r → r.id ∈ kept → env.rule r.id ≠ .dropped)
    (henv : env.Refers M (Foreign M kept)) {ctx : Context π ρ}
    (hscope : ctx.scope.All (Parser.Refers M (Foreign M kept))) {α : Type} {p : Parser π ρ α}
    (hp : p.All (Parser.Refers M (Foreign M kept))) (fuel : Nat) (c : C) :
    Life kept M (p.run env fuel ctx c s).2
  | parse {M : Rule → Prop} {s : Session C ρ} (h : Life kept M s) {env : Environment π ρ}
    (hkept : ∀ r, M r → r.id ∈ kept → env.rule r.id ≠ .dropped)
    (henv : env.Refers M (Foreign M kept)) {g : GrammarParser} (hstart : M g.start) (fuel : Nat)
    (c : C) : Life kept M (g.parse env fuel c s).2.2
  | clearMemo {M : Rule → Prop} {s : Session C ρ} (h : Life kept M s) (g : GrammarParser) :
    Life kept M (g.clearMemo s)

variable [Primitive.Lawful π C] [Primitive.StopsInCharacters π C] {M : Rule → Prop}
  {kept : List RuleId} {env : Environment π ρ} {ctx : Context π ρ} {p : Parser π ρ α}
  {name : String}

/-- A run that stops at a rule without a parser has come to none of those that are bound. -/
theorem Parser.foreign_of_unbound (henv : env.Refers M fun _ => True)
    (hkept : ∀ r, M r → r.id ∈ kept → env.rule r.id ≠ .unbound)
    (hscope : ctx.scope.All (Refers M fun _ => True)) (hp : p.All (Refers M fun _ => True))
    {fuel : Nat} {c : C} {s : Session C ρ}
    (hrun : (p.run env fuel ctx c s).1 = .error (.unboundRule name)) : Foreign M kept name := by
  have hK : (Conduct.naming π ρ M (Foreign M kept) fun _ => True).KeptBy env :=
    .of_refers henv (fun r hr hunbound => ⟨r, hr, fun hmem => hkept r hr hmem hunbound, rfl⟩)
      fun _ _ _ => trivial
  have hs : (Conduct.naming π ρ M (Foreign M kept) fun _ => True).Remembered s := by
    intro r _ key o _
    cases o with
    | success => trivial
    | noSuccess => exact fun _ _ _ => trivial
  obtain ⟨hstops, -⟩ := (p.eval_guides hK fuel ctx ⟨hscope, hp⟩ c).of_error hs (Prod.ext hrun rfl)
  exact hstops name rfl

/-- Using certain rules only, while some rules are kept. -/
abbrev Conduct.keeping (π : Type → Type) (ρ : Type) (kept : List RuleId) (M : Rule → Prop) :
    Conduct π ρ :=
  .naming π ρ M (fun _ => True) (Foreign M kept)

omit [Primitive π] [Primitive.Runs π C] [Primitive.Lawful π C] [Primitive.StopsInCharacters π C]
  [Cursor C T] in
/-- Turning to an input lets no rule remember more than before. -/
theorem Conduct.Remembered.enter {K : Conduct π ρ} {s : Session C ρ} (h : K.Remembered s)
    (g : GrammarParser) (i : InputId) : K.Remembered (g.enter i s).2 :=
  h.of_lookup fun _ => GrammarParser.lookup_of_enter

/-- A run while some rules are kept reports none of these to be gone, and lets no rule remember such
a report. -/
theorem Parser.eval_keeping (henv : env.Refers M (Foreign M kept))
    (hkept : ∀ r, M r → r.id ∈ kept → env.rule r.id ≠ .dropped)
    (hscope : ctx.scope.All (Refers M (Foreign M kept))) (hp : p.All (Refers M (Foreign M kept)))
    (fuel : Nat) (c : C) : Keeps (Conduct.keeping π ρ kept M).Remembered
      (·.Permitted (Conduct.keeping π ρ kept M).errors) (p.eval env fuel ctx c) := by
  have hK : (Conduct.keeping π ρ kept M).KeptBy env := .of_refers henv (fun _ _ _ => trivial)
    fun r hr hdropped => ⟨r, hr, fun hmem => hkept r hr hmem hdropped, rfl⟩
  exact (p.eval_guides hK fuel ctx ⟨hscope, hp⟩ c).imp (fun _ ho => ho) fun _ _ h => h.2

/-- In all such states rules remember no report that a rule that is kept is gone. -/
theorem Session.Life.remembered {s : Session C ρ} (h : Life (π := π) kept M s) :
    (Conduct.keeping π ρ kept M).Remembered s := by
  induction h with
  | start h =>
    rintro _ ⟨r, hr, rfl⟩ key o ho
    rw [h r hr key] at ho
    cases ho
  | widen _ hM hnew ih =>
    rintro _ ⟨r, hr, rfl⟩ key o ho
    -- what was foreign to fewer rules is foreign to more
    rcases hnew r hr with hr | hnone
    · refine (ih r.id ⟨r, hr, rfl⟩ key o ho).imp fun text htext name hname => ?_
      obtain ⟨r', hr', hkept, rfl⟩ := htext name hname
      exact ⟨r', hM r' hr', hkept, rfl⟩
    · rw [hnone key] at ho
      cases ho
  | run _ hkept henv hscope hp fuel c ih =>
    exact (Parser.eval_keeping henv hkept hscope hp fuel c).state ih
  | @parse M _ _ _ hkept henv g hstart fuel c ih =>
    rw [GrammarParser.parse_eq]
    have hp : (Parser.rule g.start : Parser π ρ ρ).All (Parser.Refers M (Foreign M kept)) := hstart
    exact (Parser.eval_keeping henv hkept Scope.all_nil hp fuel c).state (ih.enter g _)
  | clearMemo _ g ih => exact ih.of_lookup fun _ => GrammarParser.lookup_of_clearMemo

/-- A run that reports a rule as gone reports one that is not among those kept. -/
theorem Session.Life.foreign_of_run {s : Session C ρ} (h : Life (π := π) kept M s)
    (henv : env.Refers M (Foreign M kept))
    (hkept : ∀ r, M r → r.id ∈ kept → env.rule r.id ≠ .dropped)
    (hscope : ctx.scope.All (Parser.Refers M (Foreign M kept)))
    (hp : p.All (Parser.Refers M (Foreign M kept))) {fuel : Nat} {c : C} {l : Location}
    (hrun : (p.run env fuel ctx c s).1 = .ok (.noSuccess (.error (droppedText name) l))) :
    Foreign M kept name :=
  ((Parser.eval_keeping henv hkept hscope hp fuel c).of_ok h.remembered (Prod.ext hrun rfl)).2 rfl
    name rfl

/-- So does a parse by a grammar. -/
theorem Session.Life.foreign_of_parse {s : Session C ρ} (h : Life (π := π) kept M s)
    (henv : env.Refers M (Foreign M kept))
    (hkept : ∀ r, M r → r.id ∈ kept → env.rule r.id ≠ .dropped) {g : GrammarParser}
    (hstart : M g.start) {fuel : Nat} {c : C} {l : Location}
    (hrun : (g.parse env fuel c s).1 = .ok (.noSuccess (.error (droppedText name) l))) :
    Foreign M kept name := by
  have hp : (Parser.rule g.start : Parser π ρ ρ).All (Parser.Refers M (Foreign M kept)) := hstart
  rw [GrammarParser.parse_eq] at hrun
  exact ((Parser.eval_keeping henv hkept Scope.all_nil hp fuel c).of_ok
    (h.remembered.enter g (Cursor.input c)) (Prod.ext hrun rfl)).2 rfl name rfl

end Runs

/-! ## The life cycle -/

section LifeCycle

open Draft

variable {π : Type → Type} {C T ρ : Type} [Cursor C T] [Primitive π] [Primitive.Runs π C]
  [Primitive.Lawful π C] [Primitive.StopsInCharacters π C] {packrat : Bool}
  {steps : List (Step π ρ)} {d : Draft π ρ} {kept : List RuleId} {reg : Registry π ρ}

/-- The life cycle of a grammar, whatever steps are taken with its own rules. -/
theorem Draft.Drafted.life_cycle (h : Drafted packrat steps d) :
    -- a name is declared once, and a rule is bound once
    (∀ name e, d.perform (.declare name) = .error e ↔
      e = .duplicateRule name ∧ .declare name ∈ steps) ∧
    (∀ r ∈ d.grammar.rules, ∀ build body e, d.perform (.bind r build body) = .error e ↔
      e = .alreadyBound r.name ∧ ∃ build body, .bind r build body ∈ steps) ∧
    -- the steps that failed have left the rules as they were
    d.grammar.rules.map Rule.name = declaredNames steps ∧
    (∀ r ∈ d.grammar.rules,
      d.registry.binding r.id = .ofBody? packrat (firstBody? steps r.name)) ∧
    (∀ start, d.finish start =
      if unboundNames steps = [] then .ok { start, rules := d.grammar.rules }
      else .error (.unbound (unboundNames steps))) ∧
    ∀ start parser, d.finish start = .ok parser → ∀ (M : Rule → Prop) (reg : Registry π ρ)
      (definition : String → Parser π ρ ρ), M start →
      -- whatever becomes of the rules, none of them is ever found without its parser
      (d.registry.Later [] reg → Environment.Refers ⟨reg.binding, definition⟩ M (fun _ => True) →
        ∀ (fuel : Nat) (c : C) (s : Session C ρ) (name : String),
          (∀ last, ({ parser with lastInput := last }.parse ⟨reg.binding, definition⟩ fuel c s).1 =
            .error (.unboundRule name) → Foreign M d.grammar.ruleIds name) ∧
          ∀ (α : Type) (p : Parser π ρ α) (ctx : Context π ρ),
            ctx.scope.All (Parser.Refers M fun _ => True) → p.All (Parser.Refers M fun _ => True) →
              (p.run ⟨reg.binding, definition⟩ fuel ctx c s).1 = .error (.unboundRule name) →
                Foreign M d.grammar.ruleIds name) ∧
      -- and as long as they are kept, none of them is reported to be gone
      (d.registry.Later d.grammar.ruleIds reg →
        Environment.Refers ⟨reg.binding, definition⟩ M (Foreign M d.grammar.ruleIds) →
        ∀ (fuel : Nat) (c : C) (s : Session C ρ) (l : Location) (name : String),
          Session.Life (π := π) d.grammar.ruleIds M s →
          (∀ last, ({ parser with lastInput := last }.parse ⟨reg.binding, definition⟩ fuel c s).1 =
            .ok (.noSuccess (.error (droppedText name) l)) → Foreign M d.grammar.ruleIds name) ∧
          ∀ (α : Type) (p : Parser π ρ α) (ctx : Context π ρ),
            ctx.scope.All (Parser.Refers M (Foreign M d.grammar.ruleIds)) →
            p.All (Parser.Refers M (Foreign M d.grammar.ruleIds)) →
              (p.run ⟨reg.binding, definition⟩ fuel ctx c s).1 =
                .ok (.noSuccess (.error (droppedText name) l)) →
                  Foreign M d.grammar.ruleIds name) := by
  have hrecords := h.records
  refine ⟨hrecords.perform_declare_eq_error_iff, fun r hr => hrecords.perform_bind_eq_error_iff hr,
    hrecords.names_eq, fun r hr => hrecords.binding_eq hr, hrecords.finish_eq, ?_⟩
  intro start parser hparser M reg definition hM
  obtain ⟨hfinish, rfl⟩ := hrecords.of_finish hparser
  -- after finishing, every rule of the grammar has its parser and may lose it only by being dropped
  constructor
  · intro hlater henv fuel c s name
    have hkept (r : Rule) (_ : M r) (hid : r.id ∈ d.grammar.ruleIds) :
        reg.binding r.id ≠ .unbound := (hrecords.binding_of_later hfinish hlater hid).1
    constructor
    · intro last hrun
      have hp : (Parser.rule parser.start : Parser π ρ ρ).All (Parser.Refers M fun _ => True) := hM
      rw [GrammarParser.parse_eq] at hrun
      exact Parser.foreign_of_unbound henv hkept Scope.all_nil hp hrun
    · exact fun α p ctx hscope hp hrun => Parser.foreign_of_unbound henv hkept hscope hp hrun
  · intro hlater henv fuel c s l name hs
    have hkept (r : Rule) (_ : M r) (hid : r.id ∈ d.grammar.ruleIds) :
        reg.binding r.id ≠ .dropped := (hrecords.binding_of_later hfinish hlater hid).2 hid
    constructor
    · intro last hrun
      have hM' : M { parser with lastInput := last }.start := hM
      exact hs.foreign_of_parse henv hkept hM' hrun
    · exact fun α p ctx hscope hp hrun => hs.foreign_of_run henv hkept hscope hp hrun

end LifeCycle

/-! ### Two rules that call each other -/

namespace Alternation

open Draft

def ping : Rule :=
  ⟨⟨0⟩, "ping"⟩

def pong : Rule :=
  ⟨⟨1⟩, "pong"⟩

/-- A letter, and the other rule behind it, or nothing. -/
def turn (letter : Char) (other : Rule) : Parser TextPrimitive Nat Nat :=
  .orElse "0" 0 (.andThen (.char letter) (.rule other))

/-- Each rule is declared and bound, and `ping` once more. -/
def steps : List (Step TextPrimitive Nat) :=
  [.declare "ping", .bind ping ⟨0⟩ (turn 'i' pong), .declare "ping", .declare "pong",
    .bind ping ⟨1⟩ (.fail "ping"), .bind pong ⟨2⟩ (turn 'o' ping)]

def draft : Draft TextPrimitive Nat :=
  steps.foldl next ⟨{ packrat := true }, {}⟩

/-- The draft is what these steps lead to. -/
theorem drafted : Drafted true steps draft := by
  have hstart : Drafted true [] (⟨{ packrat := true }, {}⟩ : Draft TextPrimitive Nat) := .start {}
  have h₁ := hstart.declare "ping"
  have h₂ := h₁.bind (r := ping) List.mem_cons_self ⟨0⟩ (turn 'i' pong)
  have h₃ := (h₂.declare "ping").declare "pong"
  have h₄ := h₃.bind (r := ping) List.mem_cons_self ⟨1⟩ (.fail "ping")
  exact h₄.bind (r := pong) (List.mem_cons_of_mem _ List.mem_cons_self) ⟨2⟩ (turn 'o' ping)

def environment : Environment TextPrimitive Nat :=
  ⟨draft.registry.binding, fun _ => .fail "<undefined>"⟩

/-- The rules use each other only. -/
theorem refers_environment : environment.Refers (· ∈ [ping, pong]) fun _ => True where
  rule hr hbound := by
    rcases List.mem_pair.mp hr with rfl | rfl
    · cases hbound
      exact ⟨trivial, trivial, trivial, List.mem_cons_of_mem _ List.mem_cons_self⟩
    · cases hbound
      exact ⟨trivial, trivial, trivial, List.mem_cons_self⟩
  definition _ := trivial

end Alternation

open Alternation in
/-- The steps that fail, and parses that never meet a rule without its parser. -/
theorem Draft.Drafted.life_cycle_alternation :
    draft.perform (.declare "ping") = .error (.duplicateRule "ping") ∧
    draft.perform (.bind ping ⟨3⟩ (turn 'x' ping)) = .error (.alreadyBound "ping") ∧
    draft.grammar.rules.map Rule.name = ["ping", "pong"] ∧
    draft.finish pong = .ok ⟨pong, [ping, pong], none⟩ ∧
    ∀ (fuel : Nat) (c : TextReader) (name : String),
      (GrammarParser.parse ⟨pong, [ping, pong], none⟩ environment fuel c {}).1 ≠
        .error (.unboundRule name) := by
  obtain ⟨hdeclare, hbind, hnames, -, hfinish, hsafe⟩ :=
    Drafted.life_cycle (C := TextReader) drafted
  have hparser : draft.finish pong = .ok ⟨pong, [ping, pong], none⟩ := hfinish pong
  refine ⟨(hdeclare _ _).mpr ⟨rfl, List.mem_cons_self⟩,
    (hbind ping List.mem_cons_self _ _ _).mpr
      ⟨rfl, _, _, List.mem_cons_of_mem _ List.mem_cons_self⟩,
    hnames.trans (by decide), hparser, fun fuel c name hrun => ?_⟩
  obtain ⟨hunbound, -⟩ := hsafe pong _ hparser (· ∈ [ping, pong]) _ _
    (List.mem_cons_of_mem _ List.mem_cons_self)
  obtain ⟨r, hr, hforeign, -⟩ := (hunbound .refl refers_environment fuel c {} name).1 none hrun
  exact hforeign (List.mem_map_of_mem hr)

end Parsing
