import Mathlib.Data.Finset.Prod
import Parsing.Proofs.Grammar.Building
import Parsing.Proofs.Grammar.History
import Parsing.Proofs.Parser.Forward
import Parsing.Proofs.Text.Whole

/-!
# Rules with memos come to an end

Rules that keep memos come to an outcome everywhere, however they refer to each other, if their
parsers are grounded in them (`Environment.Packrat`). A rule runs its parser at a place only if it
knows nothing of that place, and knows something from then on. So there is one more rule and place
ahead that a parser will not be run for (`card_untried_call_lt`), and an expression comes to an end
by induction on their number, then on its own structure (`Packrat.endsWithin`).

That holds from all states that parsing leads to, even if it was stopped in between
(`GrammarParser.Visited`).
-/

namespace Parsing

open Recognizer Cursor

variable {π : Type → Type} {C T ρ α : Type} [Cursor C T]

/-! ## What is left to try -/

namespace Session

variable [Cursor.Lawful C] {rules : List RuleId} {base c : C} {s t : Session C ρ}

/-- The places ahead of which rules know nothing, as numbers of steps. -/
def untried (rules : List RuleId) (base : C) (s : Session C ρ) : Finset (RuleId × ℕ) :=
  (rules.toFinset ×ˢ Finset.range (Lawful.remaining base + 1)).filter fun x =>
    (s.lookup x.1 (key (Cursor.next^[x.2] base))).isNone

/-- No steps lead to the key of another input. -/
theorem key_fst_iterate_next (base : C) (n : ℕ) :
    (key (Cursor.next^[n] base)).1 = input base :=
  Inputs.key_fst_of_after ⟨n, rfl⟩

/-- What rules know of places does not become less, so there is not more left to try. -/
theorem Grows.untried_subset (h : s.Grows (input base) t) :
    t.untried rules base ⊆ s.untried rules base := by
  intro x hx
  obtain ⟨hmem, hnone⟩ := Finset.mem_filter.mp hx
  refine Finset.mem_filter.mpr ⟨hmem, ?_⟩
  rw [Option.isNone_iff_eq_none] at hnone ⊢
  rw [← Option.not_isSome_iff_eq_none] at hnone ⊢
  exact fun hsome => hnone (h _ _ (key_fst_iterate_next base x.2) hsome)

/-- Calling a rule at a place that it knows nothing of leaves less to try. -/
theorem card_untried_call_lt {r : RuleId} (hr : r ∈ rules) (hc : After base c)
    (hnone : s.lookup r (key c) = none) :
    ((s.call r (key c)).2.untried rules base).card < (s.untried rules base).card := by
  obtain ⟨n, hn, rfl⟩ := hc.exists_le_remaining
  refine Finset.card_lt_card (Finset.ssubset_iff_subset_ne.mpr ⟨?_, fun heq => ?_⟩)
  · refine Grows.untried_subset ?_
    rw [← key_fst_iterate_next base n]
    exact (Grows.refl _ s).call r
  · -- the rule and the place themselves are no longer untried
    have hmem : (r, n) ∈ s.untried rules base := by
      refine Finset.mem_filter.mpr ⟨Finset.mem_product.mpr ⟨?_, ?_⟩, ?_⟩
      · exact List.mem_toFinset.mpr hr
      · exact Finset.mem_range.mpr (Nat.lt_succ_of_le hn)
      · rw [hnone]
        rfl
    rw [← heq] at hmem
    have hsome := s.isSome_lookup_call_self r (key (Cursor.next^[n] base))
    have hisNone := (Finset.mem_filter.mp hmem).2
    rw [Option.isNone_iff_eq_none.mp hisNone] at hsome
    cases hsome

end Session

/-! ## Coming to an end -/

variable [Primitive π] [Primitive.Runs π C] {env : Environment π ρ} {I : Inputs C}
  {rules : List RuleId} {aborts : Prop} {base : C} {K : ℕ}

section

variable [Cursor.Lawful C]

/-- Whether an expression comes to an outcome, for a bound that is great enough, wherever it is run
ahead of a cursor and whatever is known, if no more than `K` places are untried. -/
def Parser.EndsWithin (env : Environment π ρ) (I : Inputs C) (rules : List RuleId) (base : C)
    (K : ℕ) (p : Parser π ρ α) : Prop :=
  ∀ ctx c (s : Session C ρ), After base c → s.Forward I → (s.untried rules base).card ≤ K →
    ∃ n o s', (p.eval env n ctx c).run s = (.ok o, s')

variable [Primitive.Lawful π C]

/-- What such an expression leaves behind when it is asked for: nothing that was known is lost. -/
theorem Parser.EndsWithin.exists_answer (hbase : I.Has base) {q : Parser π ρ α}
    (hq : q.EndsWithin env I rules base K) {c : C} (hc : After base c) (build : BuildId)
    (scope : Scope π ρ) (origin : Origin) {s : Session C ρ} (hs : s.Forward I)
    (hK : (s.untried rules base).card ≤ K) :
    ∃ n o s', (answer env n build scope origin q c).run s = (.ok o, s') ∧ o.Within c ∧
      s'.Forward I ∧ (s'.untried rules base).card ≤ K := by
  have hmemos := s.memos_enter build origin
  have hs₁ : (s.enter build origin).2.Forward I := hs.of_memos hmemos
  have hgrows := (Session.Grows.refl (input base) s).of_memos hmemos
  obtain ⟨n, o, s', hrun⟩ := hq ⟨scope, (s.enter build origin).1⟩ c _ hc hs₁
    (Nat.le_trans (Finset.card_le_card hgrows.untried_subset) hK)
  obtain ⟨⟨hs', hgrows'⟩, hwithin⟩ := (q.eval_keeps_forward env s n
    ⟨scope, (s.enter build origin).1⟩ (hbase.after hc)).of_ok ⟨hs₁, hc.input_eq ▸ hgrows⟩ hrun
  rw [hc.input_eq] at hgrows'
  exact ⟨n, o, s', hrun, hwithin, hs',
    Nat.le_trans (Finset.card_le_card hgrows'.untried_subset) hK⟩

/-- A dialogue that does not stop comes to an end if all that it asks for does. -/
theorem Dialogue.Ahead.exists_run (hbase : I.Has base) {x : Dialogue π ρ C (Outcome C α)}
    (hx : x.Ahead ⟨fun _ q => q.EndsWithin env I rules base K, False, True⟩ base)
    (build : BuildId) {s : Session C ρ} (hs : s.Forward I) (hK : (s.untried rules base).card ≤ K) :
    ∃ n o s', (x.run (Parser.answer env n build)).run s = (.ok o, s') := by
  induction hx generalizing s with
  | @done o _ _ => exact ⟨0, o, s, rfl⟩
  | stop _ h => exact h.elim
  | @ask β scope origin q c next hq hc _ ih =>
    obtain ⟨n, o, s', hrun, ho, hs', hK'⟩ :=
      Parser.EndsWithin.exists_answer hbase hq hc build scope origin hs hK
    obtain ⟨m, o', t, hnext⟩ := ih o ho (fun _ => trivial) hs' hK'
    obtain ⟨k, t', hrun'⟩ := exists_run_ask hrun hnext
    exact ⟨k, o', t', hrun'⟩

namespace Parser

/-- An expression that is no rule comes to an outcome if its parts do. -/
theorem endsWithin_of_parts (hbase : I.Has base) {p : Parser π ρ α}
    (hp : p.Grounded C rules aborts) (hrule : p.isRule = false)
    (hparts : p.EachPart fun q => q.EndsWithin env I rules base K) :
    p.EndsWithin env I rules base K := by
  intro ctx c s hc hs hK
  obtain ⟨n, o, s', hrun⟩ := Dialogue.Ahead.exists_run hbase
    (ahead_plan_of_grounded hp hrule (fun _ => trivial) hparts
      (.inr (Nat.lt_succ_self (Lawful.remaining base))) hc) ctx.build hs hK
  obtain ⟨k, t, hrun'⟩ := exists_run_plan hrun
  refine ⟨k + 1, o, _, Prod.ext ?_ rfl⟩
  rw [eval_succ, fst_run_attend hrule, hrun']

omit [Primitive.Lawful π C] in
/-- A rule runs its parser if it knows nothing of the place, with less to try. -/
theorem endsWithin_rule {r : Rule} (hr : r.id ∈ rules) {build : BuildId} {body : Parser π ρ ρ}
    (hbound : env.rule r.id = .bound true build body)
    (hbody : ∀ k < K, body.EndsWithin env I rules base k) (hbase : I.Has base) :
    (rule r).EndsWithin env I rules base K := by
  intro ctx c s hc hs hK
  refine exists_run_rule_of_bound hbound ctx c s fun hnone => ?_
  have hlt := Session.card_untried_call_lt hr hc hnone
  exact hbody _ (Nat.lt_of_lt_of_le hlt hK) ⟨[], build⟩ c _ hc (hs.call (hbase.after hc) r.id)
    (Nat.le_refl _)

end Parser

/-- Grounded expressions come to an outcome, by induction on how many places are untried. -/
theorem Environment.Packrat.endsWithin (hrules : env.Packrat C rules aborts) (hbase : I.Has base)
    (p : Parser π ρ α) (hp : p.All (Parser.Grounded C rules aborts)) :
    p.EndsWithin env I rules base K := by
  -- A rule leads to an expression that may be larger, but with less left to try.
  induction K using Nat.strong_induction_on generalizing α p with
  | _ K ih =>
    refine Parser.part_induction
      (P := fun p => p.All (Parser.Grounded C rules aborts) → p.EndsWithin env I rules base K)
      (fun p hparts hp => ?_) p hp
    by_cases hrule : p.isRule = true
    · cases p with
      | rule r =>
        have hr : r.id ∈ rules := hp.self
        obtain ⟨build, body, hbound, hbody⟩ := hrules r.id hr
        exact Parser.endsWithin_rule hr hbound (fun k hk => ih k hk body hbody) hbase
      | _ => cases hrule
    · exact Parser.endsWithin_of_parts hbase hp.self (Bool.eq_false_iff.mpr hrule)
        (hparts.mp hp.eachPart)

end

/-! ## Parsing -/

namespace GrammarParser

/-- The states that parses lead to, whether they came to an outcome or were stopped, and whatever
the rules stood for then. -/
inductive Visited (I : Inputs C) : GrammarParser → Session C ρ → Prop where
  | start {g : GrammarParser} {s : Session C ρ} (h : s.memos = {}) : Visited I g s
  | parse {g : GrammarParser} {s : Session C ρ} (env : Environment π ρ) (fuel : ℕ) {c : C}
    (h : Visited I g s) (hc : I.Has c) :
    Visited I (g.parse env fuel c s).2.1 (g.parse env fuel c s).2.2
  | run {g : GrammarParser} {s : Session C ρ} {α : Type} (p : Parser π ρ α) (env : Environment π ρ)
    (fuel : ℕ) (ctx : Context π ρ) {c : C} (h : Visited I g s) (hc : I.Has c) :
    Visited I g (p.run env fuel ctx c s).2
  | clearMemo {g : GrammarParser} {s : Session C ρ} (h : Visited I g s) :
    Visited I g (g.clearMemo s)

/-- What parses lead to that came to an outcome is among what all parses lead to. -/
theorem Reachable.visited {g : GrammarParser} {s : Session C ρ} (h : Reachable I env g s) :
    Visited (π := π) I g s := by
  induction h with
  | start h => exact .start h
  | @parse g g' s s' fuel c o _ hc hrun ih =>
    have hvisited := ih.parse env fuel hc
    rw [hrun] at hvisited
    exact hvisited
  | @run g s s' α p fuel ctx c o _ hc hrun ih =>
    have hvisited := ih.run p env fuel ctx hc
    rw [hrun] at hvisited
    exact hvisited
  | clearMemo _ ih => exact ih.clearMemo

variable [Cursor.Lawful C] [Primitive.Lawful π C] {g : GrammarParser} {s : Session C ρ}

/-- In all states that parses lead to, what is remembered leads ahead. -/
theorem Visited.forward (h : Visited (π := π) I g s) : s.Forward I := by
  induction h with
  | start h => exact Session.Known.empty.of_memos h
  | @parse g _ env fuel _ _ hc ih =>
    exact Session.Forward.run (ih.of_lookup lookup_of_enter) (.rule g.start) env fuel {} hc
  | run p env fuel ctx _ hc ih => exact ih.run p env fuel ctx hc
  | clearMemo _ ih => exact ih.of_lookup lookup_of_clearMemo

/-- A rule comes to an outcome, which is its outcome for all greater bounds. -/
theorem exists_run_rule (hrules : env.Packrat C rules aborts) (hs : s.Forward I) {r : Rule}
    (hr : r.id ∈ rules) (ctx : Context π ρ) {c : C} (hc : I.Has c) :
    ∃ o n, ∀ m, n ≤ m → ((Parser.rule r).run env m ctx c s).1 = .ok o := by
  obtain ⟨n, o, s', hrun⟩ := hrules.endsWithin hc (.rule r) hr ctx c s (After.refl c) hs
    (Nat.le_refl _)
  refine ⟨o, n, fun m hm => ?_⟩
  obtain ⟨t, ht, -⟩ := Parser.eval_follows env hm rfl (.rule r) c s s rfl o s' hrun
  exact congrArg Prod.fst ht

/-- Rules that keep memos, with parsers that are grounded in them, always come to an outcome: in
every state that parses lead to, at every place of an input, however the rules refer to each other.
The outcome is the same for all bounds that are great enough. -/
theorem Visited.parse_ends (hrules : env.Packrat C rules aborts) (h : Visited (π := π) I g s)
    (hstart : g.start.id ∈ rules) {c : C} (hc : I.Has c) :
    (∃ o n, ∀ m, n ≤ m → (g.parse env m c s).1 = .ok o) ∧
      ∀ r : Rule, r.id ∈ rules → ∀ ctx, ∃ o n, ∀ m, n ≤ m →
        ((Parser.rule r).run env m ctx c s).1 = .ok o := by
  constructor
  · simp only [parse_eq]
    exact exists_run_rule hrules (h.forward.of_lookup lookup_of_enter) hstart {} hc
  · intro r hr ctx
    exact exists_run_rule hrules h.forward hr ctx hc

/-! ### A grammar of tangled rules -/

namespace Tangle

def left : Rule :=
  ⟨⟨0⟩, "left"⟩

def right : Rule :=
  ⟨⟨1⟩, "right"⟩

/-- Reads nothing before `right` unless there is white space. -/
def leftBody : Parser TextPrimitive Nat Nat :=
  .or (.andThen .spaces (.rule right)) (.replaced 0 (.char 'x'))

/-- Reads nothing before `left`. -/
def rightBody : Parser TextPrimitive Nat Nat :=
  .map (· + 1) (.andThen (.not (.char '+')) (.rule left))

/-- The grammar before it is finished. -/
def draft : Grammar :=
  ⟨true, [left, right]⟩

def registry : Registry TextPrimitive Nat :=
  ⟨[{ name := "left", packrat := true, body := some (⟨0⟩, leftBody) },
    { name := "right", packrat := true, body := some (⟨1⟩, rightBody) }]⟩

def environment : Environment TextPrimitive Nat :=
  ⟨registry.binding, fun _ => .fail "<undefined>"⟩

def grammar : GrammarParser :=
  ⟨left, [left, right], none⟩

/-- The grammar is finished with `left` as its start. -/
theorem finish_eq : draft.finish left registry = .ok grammar := rfl

/-- The grammar is built step by step. -/
theorem built : Grammar.Built true draft registry := by
  have hstart : Grammar.Built true { packrat := true } ({} : Registry TextPrimitive Nat) :=
    .start {}
  have hleft := hstart.declare (show Grammar.declare _ "left" _ = .ok (left, _, _) from rfl)
  have hright := hleft.declare (show Grammar.declare _ "right" _ = .ok (right, _, _) from rfl)
  have hbound := hright.bind (show Registry.bind _ left ⟨0⟩ leftBody = .ok _ from rfl)
  exact hbound.bind (show Registry.bind _ right ⟨1⟩ rightBody = .ok registry from rfl)

/-- The rules of the grammar are grounded in each other. -/
theorem packrat_environment (aborts : Prop) :
    environment.Packrat TextReader draft.ruleIds aborts := by
  refine built.packrat_environment finish_eq (fun r hr packrat build body hbound => ?_) _
  have hchar (expected : Char) : (.char expected : Parser TextPrimitive Nat Char).All
      (Parser.Grounded TextReader draft.ruleIds aborts) := TextPrimitive.answers_token _
  rcases List.mem_pair (c := right.id).mp hr with rfl | rfl
  · cases hbound
    exact ⟨trivial, ⟨trivial, TextPrimitive.answers_scan Text.spaces,
      List.mem_cons_of_mem _ List.mem_cons_self⟩, trivial, hchar 'x'⟩
  · cases hbound
    exact ⟨trivial, trivial, ⟨trivial, hchar '+'⟩, List.mem_cons_self⟩

end Tangle

open Tangle in
/-- The rule was stopped while both rules were at work. -/
theorem Visited.parse_ends_tangle :
    ∃ o n, ∀ m, n ≤ m →
      (Tangle.grammar.parse environment m (Brackets.inputs.start ⟨0⟩)
        ((Parser.rule left).run environment 5 {} (Brackets.inputs.start ⟨0⟩) {}).2).1 = .ok o := by
  have hvisited : Visited (π := TextPrimitive) Brackets.inputs Tangle.grammar _ :=
    .run (.rule left) environment 5 {} (.start (s := {}) rfl) (Brackets.inputs.has_start ⟨0⟩)
  exact (Visited.parse_ends (packrat_environment True) hvisited List.mem_cons_self
    (Brackets.inputs.has_start ⟨0⟩)).1

end GrammarParser

end Parsing
