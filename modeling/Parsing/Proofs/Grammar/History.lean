import Parsing.Parser.Text
import Parsing.Proofs.Grammar.Recall

/-!
# What was parsed before

`GrammarParser.Reachable` are the states that a finished grammar and its rules get into by parsing:
by the grammar itself, by rules that are used in other parsers, on any inputs and from any places in
them, and by forgetting everything in between. In all of them rules remember what they come to, and
no rule is at work (`Reachable.recalls`). So a grammar with memos comes to whatever the same grammar
without memos comes to (`Reachable.parse_of_plain`), which may be built by the same steps next to it
(`parse_of_built`).
-/

namespace Parsing

open Recognizer Cursor

variable {π : Type → Type} {C T ρ : Type} [Cursor C T] [Primitive π] [Primitive.Runs π C]

namespace GrammarParser

/-- The states that parses which came to an outcome lead to. -/
inductive Reachable (I : Inputs C) (env : Environment π ρ) :
    GrammarParser → Session C ρ → Prop where
  /-- At first no rule knows anything. -/
  | start {g : GrammarParser} {s : Session C ρ} (h : s.memos = {}) : Reachable I env g s
  | parse {g g' : GrammarParser} {s s' : Session C ρ} {fuel : Nat} {c : C} {o : Outcome C ρ}
    (h : Reachable I env g s) (hc : I.Has c)
    (hrun : g.parse env fuel c s = (.ok o, g', s')) : Reachable I env g' s'
  /-- Any expression may use the rules. -/
  | run {g : GrammarParser} {s s' : Session C ρ} {α : Type} {p : Parser π ρ α} {fuel : Nat}
    {ctx : Context π ρ} {c : C} {o : Outcome C α} (h : Reachable I env g s) (hc : I.Has c)
    (hrun : p.run env fuel ctx c s = (.ok o, s')) : Reachable I env g s'
  | clearMemo {g : GrammarParser} {s : Session C ρ} (h : Reachable I env g s) :
    Reachable I env g (g.clearMemo s)

omit [Cursor C T] in
/-- Forgetting everything adds nothing to what rules know. -/
theorem lookup_of_clearMemo {g : GrammarParser} {s : Session C ρ} {r : RuleId} {key : MemoKey}
    {e : MemoEntry C ρ} (h : (g.clearMemo s).lookup r key = some e) :
    s.lookup r key = some e := by
  unfold clearMemo at h
  generalize g.rules = rules at h
  induction rules generalizing s with
  | nil => exact h
  | cons r rules ih => exact Session.lookup_of_clear (ih h)

omit [Cursor C T] in
/-- Turning to an input only forgets. -/
theorem lookup_of_enter {g : GrammarParser} {i : InputId} {s : Session C ρ} {r : RuleId}
    {key : MemoKey} {e : MemoEntry C ρ} (h : (g.enter i s).2.lookup r key = some e) :
    s.lookup r key = some e := by
  unfold enter at h
  split at h
  · exact h
  · exact lookup_of_clearMemo h

/-- A parse turns to the input of its cursor, and runs the start rule there. -/
theorem parse_eq (g : GrammarParser) (env : Environment π ρ) (fuel : Nat) (c : C)
    (s : Session C ρ) :
    g.parse env fuel c s =
      (((Parser.rule g.start).run env fuel {} c (g.enter (Cursor.input c) s).2).1,
        (g.enter (Cursor.input c) s).1,
        ((Parser.rule g.start).run env fuel {} c (g.enter (Cursor.input c) s).2).2) := rfl

variable {env : Environment π ρ} {I : Inputs C} [Cursor.Lawful C] [Primitive.Lawful π C]
  {g : GrammarParser} {s : Session C ρ}

omit [Cursor.Lawful C] [Primitive.Lawful π C] in
/-- What is known in all states that parses lead to is what runs keep. -/
theorem Reachable.known_of_run {res : RuleId → C → Outcome C ρ → Prop}
    (hres : ∀ {α : Type} {p : Parser π ρ α} {fuel : Nat} {ctx : Context π ρ} {c : C}
      {o : Outcome C α} {s s' : Session C ρ}, I.Has c → s.Known I res (fun _ _ => False) →
        p.run env fuel ctx c s = (.ok o, s') → s'.Known I res fun _ _ => False)
    (h : Reachable I env g s) : s.Known I res fun _ _ => False := by
  induction h with
  | start h => exact Session.Known.empty.of_memos h
  | parse _ hc hrun ih =>
    rw [parse_eq] at hrun
    obtain ⟨hresult, -, rfl⟩ := Prod.mk.inj hrun |>.imp_right Prod.mk.inj
    exact hres hc (ih.of_lookup lookup_of_enter) (Prod.ext hresult rfl)
  | run _ hc hrun ih => exact hres hc ih hrun
  | clearMemo _ ih => exact ih.of_lookup lookup_of_clearMemo

/-- Rules remember what they come to, and no rule is at work. -/
theorem Reachable.recalls (h : Reachable I env g s) : s.Known I env.Recalls fun _ _ => False :=
  h.known_of_run fun {_ p fuel ctx _ _ _ _} hc hs hrun =>
    ((p.eval_comes fuel ctx hc (.of_false _)).of_ok hs hrun).1

/-- In all states that parses lead to, rules know only what agrees with runs without memos. -/
theorem Reachable.known (h : Reachable I env g s) : s.Known I env.Agrees fun _ _ => False :=
  h.recalls.agrees

section

variable {reg : Registry π ρ} {definition : String → Parser π ρ ρ}

/-- Where rules remember what they come to, an expression comes to what it comes to without
memos. -/
theorem run_of_plain {t : Session C ρ}
    (ht : t.Known I (Environment.Agrees ⟨reg.binding, definition⟩) fun _ _ => False) {α : Type}
    {p : Parser π ρ α} {ctx : Context π ρ} {c : C} (hc : I.Has c) {n : Nat} {s₀ : Session C ρ}
    {o : Outcome C α} (hplain : (p.run ⟨reg.plain.binding, definition⟩ n ctx c s₀).1 = .ok o)
    {m : Nat} (hnm : n ≤ m) : (p.run ⟨reg.binding, definition⟩ m ctx c t).1 = .ok o := by
  rw [reg.environment_plain] at hplain
  obtain ⟨t', ht', -⟩ := p.eval_follows_plain hnm (fun r c h => h.elim) rfl hc s₀ t ht o _
    (Prod.ext hplain rfl)
  exact congrArg Prod.fst ht'

/-- So does a grammar, whose memos may be cleared before its start rule runs. -/
theorem parse_of_plain_start (h : g.Reachable I ⟨reg.binding, definition⟩ s) {g₀ : GrammarParser}
    (hstart : g₀.start = g.start) {c : C} (hc : I.Has c) {n : Nat} {s₀ : Session C ρ}
    {o : Outcome C ρ} (hplain : (g₀.parse ⟨reg.plain.binding, definition⟩ n c s₀).1 = .ok o)
    {m : Nat} (hnm : n ≤ m) : (g.parse ⟨reg.binding, definition⟩ m c s).1 = .ok o := by
  rw [parse_eq, hstart] at hplain
  rw [parse_eq]
  exact run_of_plain (h.known.of_lookup lookup_of_enter) hc hplain hnm

/-- In every state that was reached by parsing, a grammar with memos comes to what the same grammar
without memos comes to, whatever that is and however deep the run was; and so does every expression
that uses its rules. -/
theorem Reachable.parse_of_plain {reg : Registry π ρ} {definition : String → Parser π ρ ρ}
    (h : Reachable I ⟨reg.binding, definition⟩ g s) {c : C} (hc : I.Has c) :
    (∀ (g₀ : GrammarParser) (n : Nat) (s₀ : Session C ρ) (o : Outcome C ρ), g₀.start = g.start →
      (g₀.parse ⟨reg.plain.binding, definition⟩ n c s₀).1 = .ok o →
        ∀ m, n ≤ m → (g.parse ⟨reg.binding, definition⟩ m c s).1 = .ok o) ∧
    ∀ (α : Type) (p : Parser π ρ α) (ctx : Context π ρ) (n : Nat) (s₀ : Session C ρ)
      (o : Outcome C α), (p.run ⟨reg.plain.binding, definition⟩ n ctx c s₀).1 = .ok o →
        ∀ m, n ≤ m → (p.run ⟨reg.binding, definition⟩ m ctx c s).1 = .ok o :=
  ⟨fun _ _ _ _ hstart hplain _ hnm => parse_of_plain_start h hstart hc hplain hnm,
    fun _ _ _ _ _ _ hplain _ hnm => run_of_plain h.known hc hplain hnm⟩

/-- The grammar without memos may be one of its own: it is built by the same steps, and finished to
a parser with the same rules. What that comes to, the grammar with memos comes to. -/
theorem parse_of_built {draft : Grammar} (hbuilt : draft.Built true reg) {start : Rule}
    {parser : GrammarParser} (hfinish : draft.finish start reg = .ok parser)
    (h : g.Reachable I ⟨reg.binding, definition⟩ s) (hstart : g.start = start) :
    draft.plain.Built false reg.plain ∧ draft.plain.finish start reg.plain = .ok parser ∧
      ∀ (c : C) (n : Nat) (s₀ : Session C ρ) (o : Outcome C ρ), I.Has c →
        (parser.parse ⟨reg.plain.binding, definition⟩ n c s₀).1 = .ok o →
          ∀ m, n ≤ m → (g.parse ⟨reg.binding, definition⟩ m c s).1 = .ok o := by
  refine ⟨hbuilt.plain, (draft.finish_plain start reg).trans hfinish,
    fun c n s₀ o hc hplain m hnm => parse_of_plain_start h ?_ hc hplain hnm⟩
  rw [Grammar.eq_of_finish hfinish, hstart]

end

/-! ### A grammar of brackets -/

namespace Brackets

def rule : Rule :=
  ⟨⟨0⟩, "brackets"⟩

/-- An `x` in brackets; the value is the number of pairs of them. -/
def body : Parser TextPrimitive Nat Nat :=
  .or (.map (· + 1) (.between (.char '[') (.rule rule) (.char ']'))) (.replaced 0 (.char 'x'))

def registry : Registry TextPrimitive Nat :=
  ⟨[{ name := "brackets", packrat := true, body := some (⟨0⟩, body) }]⟩

def environment : Environment TextPrimitive Nat :=
  ⟨registry.binding, fun _ => .fail "<undefined>"⟩

def grammar : GrammarParser :=
  ⟨rule, [rule], none⟩

/-- Every input is one `x` in brackets. -/
def inputs : Inputs TextReader :=
  ⟨fun i => .ofChars ['[', 'x', ']'] (.offset 0) i, fun _ => rfl⟩

end Brackets

open Brackets in
/-- The rule was used behind the first bracket, and remembers what it came to there. -/
theorem Reachable.parse_of_plain_brackets :
    (Brackets.grammar.parse environment 12 (inputs.start ⟨0⟩)
      ((Parser.rule rule).run environment 12 {} (Cursor.next (inputs.start ⟨0⟩)) {}).2).1 =
      .ok (.success 1 ⟨['[', 'x', ']'], [], 3, .offset 3, ⟨0⟩⟩) := by
  have hrun : (Parser.rule rule).run environment 12 {} (Cursor.next (inputs.start ⟨0⟩)) {} =
      (.ok (.success 0 ⟨['[', 'x', ']'], [']'], 2, .offset 2, ⟨0⟩⟩),
        ((Parser.rule rule).run environment 12 {} (Cursor.next (inputs.start ⟨0⟩)) {}).2) := rfl
  have hreach : Reachable inputs environment Brackets.grammar _ := .run (.start rfl) ⟨1, rfl⟩ hrun
  exact (Reachable.parse_of_plain hreach ⟨0, rfl⟩).1 Brackets.grammar 12 {} _ rfl rfl 12
    (Nat.le_refl 12)

end GrammarParser

end Parsing
