import Mathlib.Data.Fin.VecNotation
import Mathlib.Data.Fintype.Order
import Parsing.Proofs.Grammar.Independence
import Parsing.Proofs.Parser.Bounds
import Parsing.Proofs.Parser.Settled
import Parsing.Proofs.Recognizer.Choices

/-!
# Nested choices

Choices between two expressions and choices among several may be nested in any way
(`Choices`). However that is done, what comes of it is what comes of one choice among all the
expressions, from left to right: the result of the first one that does not fail, or else the failure
of the last one (`Choices.endsIn_parser_iff`). Those behind the one that decides are not run,
so that nothing is changed in the session behind it. Since what was run before does not matter, each
expression may as well be run by itself.
-/

namespace Parsing

open Recognizer Effect Cursor

/-- Expressions as alternatives to each other, by nested choices. -/
inductive Choices (π : Type → Type) (ρ α : Type) : Type 1 where
  | leaf (p : Parser π ρ α)
  | or (a b : Choices π ρ α)
  | choice {n : ℕ} (parts : Fin (n + 1) → Choices π ρ α)

namespace Choices

variable {π : Type → Type} {ρ α : Type}

/-- The expression that makes the choices. -/
def parser : Choices π ρ α → Parser π ρ α
  | leaf p => p
  | or a b => .or a.parser b.parser
  | choice parts => .choice fun i => (parts i).parser

/-- The expressions to choose from, from left to right. -/
def leaves : Choices π ρ α → List (Parser π ρ α)
  | leaf p => [p]
  | or a b => a.leaves ++ b.leaves
  | choice parts => (List.ofFn fun i => (parts i).leaves).flatten

/-- There is something to choose from. -/
theorem leaves_ne_nil (a : Choices π ρ α) : a.leaves ≠ [] := by
  induction a with
  | leaf p => exact List.cons_ne_nil _ _
  | or a b iha ihb => exact List.append_ne_nil_of_left_ne_nil iha _
  | choice parts ih =>
    intro hnil
    exact ih 0 (List.flatten_eq_nil_iff.mp hnil _ (List.mem_ofFn.mpr ⟨0, rfl⟩))

end Choices

namespace Parser

variable {π : Type → Type} {C T ρ α : Type} [Cursor C T] [Primitive π] [Primitive.Runs π C]
  {env : Environment π ρ} {ctx : Context π ρ} {c : C} {s t u : Session C ρ}
  {x : Except Halt (Outcome C α)} {p : Parser π ρ α} {ps : List (Parser π ρ α)}

/-- An expression comes to what it ends in. -/
theorem runsTo_iff_exists_endsIn {o : Outcome C α} :
    p.RunsTo env ctx c s o ↔ ∃ t, p.EndsIn env ctx c s (.ok o) t := by
  constructor
  · rintro ⟨n, hn⟩
    exact ⟨_, by simp, n, Prod.ext (hn n (Nat.le_refl n)) rfl⟩
  · rintro ⟨t, -, n, hn⟩
    exact .of_run (congrArg Prod.fst hn)

/-! ## One choice -/

/-- What the expressions of a list do at the place of another one, one level deeper. -/
def evals (env : Environment π ρ) (n : ℕ) (ctx : Context π ρ) (ps : List (Parser π ρ α)) :
    List (Recognizer (Effect (Session C ρ)) C α) :=
  ps.map fun p => p.eval env n ctx

/-- Lists of recognizers for leaves are not empty. -/
theorem evals_ne_nil {n : ℕ} (hps : ps ≠ []) :
    (evals env n ctx ps : List (Recognizer (Effect (Session C ρ)) C α)) ≠ [] :=
  fun h => hps (List.map_eq_nil_iff.mp h)

/-- A choice among expressions is the choice among what they do one level deeper. -/
theorem eval_choiceOf_succ (n : ℕ) : ((choiceOf ps).eval env (n + 1) ctx :
    Recognizer (Effect (Session C ρ)) C α) = Recognizer.choice (evals env n ctx ps) := by
  have hstep : (choiceOf ps).step env n (answer env n ctx.build) ctx = Recognizer.choice
      (ps.map (answer env n ctx.build ctx.scope .same :
        Parser π ρ α → Recognizer (Effect (Session C ρ)) C α)) := step_choiceOf
  exact hstep

/-- What the leaves come to in turn, the choice comes to one level above. -/
theorem run_choiceOf_of_evals {n : ℕ}
    (h : (Recognizer.choice (evals env n ctx ps) c).run s = (x, t)) :
    (choiceOf ps).run env (n + 1) ctx c s = (x, t) := by
  rw [run, eval_choiceOf_succ]
  exact h

/-- What a choice ends in, its leaves come to in turn. -/
theorem EndsIn.exists_run_evals (h : (choiceOf ps).EndsIn env ctx c s x t) :
    ∃ n, (Recognizer.choice (evals env n ctx ps) c).run s = (x, t) := by
  obtain ⟨n, hn⟩ := h.exists_le
  have hrun := hn (n + 1) (Nat.le_succ n)
  rw [run, eval_choiceOf_succ] at hrun
  exact ⟨n, hrun⟩

/-- The first of several alternatives is the outcome, or it fails and the others are tried. -/
theorem endsIn_choiceOf_cons_iff : (choiceOf (p :: ps)).EndsIn env ctx c s x t ↔
    (p.EndsIn env ctx c s x t ∧ (Fails x → ps = [])) ∨
    ∃ r u, r.isFailure = true ∧ p.EndsIn env ctx c s (.ok (.noSuccess r)) u ∧ ps ≠ [] ∧
      (choiceOf ps).EndsIn env ctx c u x t := by
  by_cases hps : ps = []
  · -- the choice is its only alternative
    subst hps
    constructor
    · intro h
      obtain ⟨n, hn⟩ := h.exists_run_evals
      exact .inl ⟨⟨h.1, n, hn⟩, fun _ => rfl⟩
    · rintro (⟨⟨hx, n, hn⟩, -⟩ | ⟨r, u, -, -, hne, -⟩)
      · exact ⟨hx, n + 1, run_choiceOf_of_evals hn⟩
      · exact absurd rfl hne
  · have hchoice (n : ℕ) : Recognizer.choice (evals env n ctx (p :: ps)) =
        Recognizer.or (p.eval env n ctx : Recognizer (Effect (Session C ρ)) C α)
          (Recognizer.choice (evals env n ctx ps)) := choice_cons _ (evals_ne_nil hps)
    constructor
    · intro h
      obtain ⟨n, hn⟩ := h.exists_run_evals
      rw [hchoice] at hn
      rcases hp : (p.eval env n ctx c).run s with ⟨y, u⟩
      by_cases hy : Fails y
      · obtain ⟨r, hr, rfl⟩ := hy
        rw [run_or_of_failure hr hp] at hn
        exact .inr ⟨r, u, hr, ⟨by simp, n, hp⟩, hps, h.1, n + 1, run_choiceOf_of_evals hn⟩
      · rw [run_or_of_not_fails hy hp] at hn
        cases hn
        exact .inl ⟨⟨h.1, n, hp⟩, fun hx => absurd hx hy⟩
    · rintro (⟨⟨hx, n, hn⟩, hlast⟩ | ⟨r, u, hr, hp, -, hrest⟩)
      · refine ⟨hx, n + 1, run_choiceOf_of_evals ?_⟩
        rw [hchoice]
        exact run_or_of_not_fails (fun hfails => hps (hlast hfails)) hn
      · -- one bound is great enough for the first one and for the others
        obtain ⟨n, hn⟩ := hp.exists_le
        obtain ⟨m, hm⟩ := hrest.exists_le
        have hfirst := hn (max n m) (Nat.le_max_left n m)
        have hothers := hm (max n m + 1) (Nat.le_succ_of_le (Nat.le_max_right n m))
        rw [run, eval_choiceOf_succ] at hothers
        refine ⟨hrest.1, max n m + 1, run_choiceOf_of_evals ?_⟩
        rw [hchoice, run_or_of_failure hr hfirst]
        exact hothers

/-- Failures of expressions at one cursor, each in the session that the one before it left. -/
inductive FailInTurn (env : Environment π ρ) (ctx : Context π ρ) (c : C) :
    List (Parser π ρ α) → Session C ρ → Session C ρ → Prop where
  | nil (s : Session C ρ) : FailInTurn env ctx c [] s s
  | cons {p : Parser π ρ α} {ps : List (Parser π ρ α)} {s t u : Session C ρ} {r : NoSuccess}
    (hr : r.isFailure = true) (hp : p.EndsIn env ctx c s (.ok (.noSuccess r)) t)
    (h : FailInTurn env ctx c ps t u) : FailInTurn env ctx c (p :: ps) s u

/-- A choice ends as the first alternative does that does not fail, or else as the last one. -/
theorem endsIn_choiceOf_iff (hps : ps ≠ []) : (choiceOf ps).EndsIn env ctx c s x t ↔
    ∃ before p after u, ps = before ++ p :: after ∧ FailInTurn env ctx c before s u ∧
      p.EndsIn env ctx c u x t ∧ (Fails x → after = []) := by
  induction ps generalizing s with
  | nil => exact absurd rfl hps
  | cons p ps ih =>
    rw [endsIn_choiceOf_cons_iff]
    constructor
    · rintro (⟨hp, hlast⟩ | ⟨r, u, hr, hp, hne, hrest⟩)
      · exact ⟨[], p, ps, s, rfl, .nil s, hp, hlast⟩
      · obtain ⟨before, q, after, v, rfl, hbefore, hq, hlast⟩ := (ih hne).mp hrest
        exact ⟨p :: before, q, after, v, rfl, .cons hr hp hbefore, hq, hlast⟩
    · rintro ⟨before, q, after, v, heq, hbefore, hq, hlast⟩
      cases hbefore with
      | nil =>
        cases heq
        exact .inl ⟨hq, hlast⟩
      | cons hr hp hbefore =>
        cases heq
        have hne := List.append_ne_nil_of_right_ne_nil ‹_› (List.cons_ne_nil q after)
        exact .inr ⟨_, _, hr, hp, hne, (ih hne).mpr ⟨_, q, after, v, rfl, hbefore, hq, hlast⟩⟩

end Parser

/-! ## Nested choices -/

namespace Choices

open Parsing.Parser

variable {π : Type → Type} {C T ρ α : Type} [Cursor C T] [Primitive π] [Primitive.Runs π C]
  {env : Environment π ρ} {ctx : Context π ρ} {c : C} {s t : Session C ρ}
  {x : Except Halt (Outcome C α)}

section Flattening

variable (env ctx)

/-- For a choice between two, the leaves of both are chosen from in one row. -/
theorem choice_evals_or (n : ℕ) (a b : Choices π ρ α) :
    (Recognizer.choice (evals env n ctx (a.or b).leaves) :
      Recognizer (Effect (Session C ρ)) C α) =
      Recognizer.or (Recognizer.choice (evals env n ctx a.leaves))
        (Recognizer.choice (evals env n ctx b.leaves)) := by
  rw [leaves, evals, List.map_append]
  exact choice_append (evals_ne_nil a.leaves_ne_nil) (evals_ne_nil b.leaves_ne_nil)

/-- For a choice among several, the leaves of all are chosen from in one row. -/
theorem choice_evals_choice (n : ℕ) {k : ℕ} (parts : Fin (k + 1) → Choices π ρ α) :
    (Recognizer.choice (evals env n ctx (choice parts).leaves) :
      Recognizer (Effect (Session C ρ)) C α) =
      Recognizer.choice (List.ofFn fun i =>
        Recognizer.choice (evals env n ctx (parts i).leaves)) := by
  rw [leaves, evals, List.map_flatten, List.map_ofFn, ← choice_flatten, List.map_ofFn]
  · rfl
  · intro ps hps
    obtain ⟨i, rfl⟩ := List.mem_ofFn.mp hps
    exact evals_ne_nil (parts i).leaves_ne_nil

/-- Nested choices do what one choice does among the same expressions, which may run deeper
there. -/
theorem related_choices (a : Choices π ρ α) {n m : ℕ} (hnm : n ≤ m) :
    UpToBound.simulation.Related
      (a.parser.eval env n ctx : Recognizer (Effect (Session C ρ)) C α)
      (Recognizer.choice (evals env m ctx a.leaves)) := by
  induction a generalizing n with
  | leaf p =>
    rintro c _ ⟨rfl, -⟩
    exact upToBound_eval hnm ctx p c
  | or a b iha ihb =>
    cases n with
    | zero => exact fun _ _ _ => .outOfFuel _
    | succ n =>
      have hle : n ≤ m := Nat.le_of_succ_le hnm
      rw [choice_evals_or]
      exact UpToBound.simulation.related_or (iha hle) (ihb hle)
  | choice parts ih =>
    cases n with
    | zero => exact fun _ _ _ => .outOfFuel _
    | succ n =>
      have hle : n ≤ m := Nat.le_of_succ_le hnm
      rw [choice_evals_choice]
      exact UpToBound.simulation.related_choice fun i => ih i hle

/-- One choice does what nested choices do if these may run deeper by their own depth. -/
theorem exists_related_leaves (a : Choices π ρ α) : ∃ k, ∀ m n, m + k ≤ n →
    UpToBound.simulation.Related (Recognizer.choice (evals env m ctx a.leaves))
      (a.parser.eval env n ctx : Recognizer (Effect (Session C ρ)) C α) := by
  induction a with
  | leaf p =>
    refine ⟨0, fun m n hmn => ?_⟩
    rintro c _ ⟨rfl, -⟩
    exact upToBound_eval hmn ctx p c
  | or a b iha ihb =>
    obtain ⟨k, hk⟩ := iha
    obtain ⟨l, hl⟩ := ihb
    refine ⟨max k l + 1, fun m n hmn => ?_⟩
    obtain ⟨n, rfl⟩ := Nat.exists_eq_add_of_le' (Nat.le_trans (Nat.le_add_left 1 _) hmn)
    rw [choice_evals_or]
    exact UpToBound.simulation.related_or (hk m n (by omega)) (hl m n (by omega))
  | choice parts ih =>
    choose k hk using ih
    obtain ⟨l, hl⟩ := Finite.exists_le k
    refine ⟨l + 1, fun m n hmn => ?_⟩
    obtain ⟨n, rfl⟩ := Nat.exists_eq_add_of_le' (Nat.le_trans (Nat.le_add_left 1 _) hmn)
    rw [choice_evals_choice]
    refine UpToBound.simulation.related_choice fun i => hk i m n ?_
    have hki := hl i
    omega

end Flattening

/-- Nested choices end as one choice among the same expressions does. -/
theorem endsIn_parser_iff_choiceOf (a : Choices π ρ α) : a.parser.EndsIn env ctx c s x t ↔
    (choiceOf a.leaves).EndsIn env ctx c s x t := by
  constructor
  · rintro ⟨hx, n, hn⟩
    have hflat := related_choices env ctx a (Nat.le_refl n) c c ⟨rfl, trivial⟩
    exact ⟨hx, n + 1, run_choiceOf_of_evals (UpToBound.eq_of_run hflat hx hn)⟩
  · intro h
    obtain ⟨n, hn⟩ := h.exists_run_evals
    obtain ⟨k, hk⟩ := exists_related_leaves (C := C) env ctx a
    have hnested := hk n (n + k) (Nat.le_refl _) c c ⟨rfl, trivial⟩
    exact ⟨h.1, n + k, UpToBound.eq_of_run hnested h.1 hn⟩

end Choices

/-! ## Whatever was run before -/

namespace GrammarParser.Reachable

open Parsing.Parser

variable {π : Type → Type} {C T ρ α : Type} [Cursor C T] [Primitive π] [Primitive.Runs π C]
  [Cursor.Lawful C] [Primitive.Lawful π C] {env : Environment π ρ} {ctx : Context π ρ}
  {I : Inputs C} {g : GrammarParser} {c : C} {s t u : Session C ρ} {p : Parser π ρ α}
  {ps : List (Parser π ρ α)} {o : Outcome C α}

omit [Cursor.Lawful C] [Primitive.Lawful π C] in
/-- A run that has ended leads to a state of the kind that it began in. -/
theorem of_endsIn (h : Reachable I env g s) (hc : I.Has c) (hp : p.EndsIn env ctx c s (.ok o) t) :
    Reachable I env g t := by
  obtain ⟨-, n, hn⟩ := hp
  exact h.run hc hn

/-- From one state that parses lead to, an expression comes to what it comes to from another one. -/
theorem runsTo_congr (hs : Reachable I env g s) (ht : Reachable I env g t) (hc : I.Has c) :
    p.RunsTo env ctx c s o ↔ p.RunsTo env ctx c t o :=
  (hs.runsTo_iff hc).trans (ht.runsTo_iff hc).symm

/-- Expressions fail in turn just if each of them fails by itself. -/
theorem exists_failInTurn_iff (h : Reachable I env g s) (hc : I.Has c) :
    (∃ u, FailInTurn env ctx c ps s u) ↔
      ∀ p ∈ ps, ∃ r : NoSuccess, r.isFailure = true ∧ p.RunsTo env ctx c s (.noSuccess r) := by
  induction ps generalizing s with
  | nil => exact ⟨fun _ => List.forall_mem_nil _, fun _ => ⟨s, .nil s⟩⟩
  | cons p ps ih =>
    rw [List.forall_mem_cons]
    constructor
    · rintro ⟨u, hfail⟩
      cases hfail with
      | cons hr hp hps =>
        have ht := h.of_endsIn hc hp
        refine ⟨⟨_, hr, runsTo_iff_exists_endsIn.mpr ⟨_, hp⟩⟩, fun q hq => ?_⟩
        obtain ⟨r, hr, hq⟩ := (ih ht).mp ⟨u, hps⟩ q hq
        exact ⟨r, hr, (h.runsTo_congr ht hc).mpr hq⟩
    · rintro ⟨⟨r, hr, hp⟩, hps⟩
      obtain ⟨t, hp⟩ := runsTo_iff_exists_endsIn.mp hp
      have ht := h.of_endsIn hc hp
      obtain ⟨u, hfail⟩ := (ih ht).mpr fun q hq => by
        obtain ⟨r, hr, hq⟩ := hps q hq
        exact ⟨r, hr, (h.runsTo_congr ht hc).mp hq⟩
      exact ⟨u, .cons hr hp hfail⟩

omit [Cursor.Lawful C] [Primitive.Lawful π C] in
/-- So do failures in turn. -/
theorem of_failInTurn (h : Reachable I env g s) (hc : I.Has c)
    (hps : FailInTurn env ctx c ps s u) : Reachable I env g u := by
  induction hps with
  | nil => exact h
  | cons _ hp _ ih => exact ih (h.of_endsIn hc hp)

end GrammarParser.Reachable

namespace Choices

open Parsing.Parser

variable {π : Type → Type} {C T ρ α : Type} [Cursor C T] [Primitive π] [Primitive.Runs π C]
  [Cursor.Lawful C] [Primitive.Lawful π C]

/-- Nested choices are one choice, which is ordered:
* they end as one choice among all of their expressions does, from left to right, and in the same
  session;
* that is as the first expression ends that does not fail, or else as the last one, behind the
  failures of those before it at the same cursor, and without a run of any behind it;
* whatever was parsed before, all of these expressions come to what they come to by themselves. -/
theorem endsIn_parser_iff (env : Environment π ρ) (ctx : Context π ρ) (a : Choices π ρ α)
    (c : C) :
    (∀ s x t, a.parser.EndsIn env ctx c s x t ↔ (choiceOf a.leaves).EndsIn env ctx c s x t) ∧
    (∀ s x t, a.parser.EndsIn env ctx c s x t ↔
      ∃ before p after u, a.leaves = before ++ p :: after ∧ FailInTurn env ctx c before s u ∧
        p.EndsIn env ctx c u x t ∧ (Fails x → after = [])) ∧
    ∀ (I : Inputs C) (g : GrammarParser) (s : Session C ρ) (o : Outcome C α),
      GrammarParser.Reachable I env g s → I.Has c →
        (a.parser.RunsTo env ctx c s o ↔ ∃ before p after, a.leaves = before ++ p :: after ∧
          (∀ q ∈ before, ∃ r, r.isFailure = true ∧ q.RunsTo env ctx c s (.noSuccess r)) ∧
          p.RunsTo env ctx c s o ∧ (o.isFailure = true → after = [])) := by
  have hflat (s x t) : a.parser.EndsIn env ctx c s x t ↔ _ := a.endsIn_parser_iff_choiceOf
  have hordered (s x t) := (hflat s x t).trans (endsIn_choiceOf_iff a.leaves_ne_nil)
  refine ⟨hflat, hordered, fun I g s o hs hc => ?_⟩
  constructor
  · intro h
    obtain ⟨t, hend⟩ := runsTo_iff_exists_endsIn.mp h
    obtain ⟨before, p, after, u, hleaves, hbefore, hp, hlast⟩ := (hordered s _ t).mp hend
    -- the alternatives before it ran in other sessions, where it comes to the same
    have hu := hs.of_failInTurn hc hbefore
    refine ⟨before, p, after, hleaves, (hs.exists_failInTurn_iff hc).mp ⟨u, hbefore⟩, ?_,
      fun ho => hlast (fails_ok_iff.mpr ho)⟩
    exact (hs.runsTo_congr hu hc).mpr (runsTo_iff_exists_endsIn.mpr ⟨t, hp⟩)
  · rintro ⟨before, p, after, hleaves, hfail, hp, hlast⟩
    obtain ⟨u, hbefore⟩ := (hs.exists_failInTurn_iff hc).mpr hfail
    have hu := hs.of_failInTurn hc hbefore
    obtain ⟨t, hp⟩ := runsTo_iff_exists_endsIn.mp ((hs.runsTo_congr hu hc).mp hp)
    refine runsTo_iff_exists_endsIn.mpr ⟨t, (hordered s _ t).mpr ?_⟩
    exact ⟨before, p, after, u, hleaves, hbefore, hp, fun ho => hlast (fails_ok_iff.mp ho)⟩

/-! ### An opening bracket -/

namespace Marks

/-- An opening bracket, counted. -/
def opening : Parser TextPrimitive Nat Char :=
  .tally "opening" (.char '[')

/-- One of several letters and marks, or else any character. -/
def marks : Choices TextPrimitive Nat Char :=
  .or (.choice ![.leaf (.char 'a'), .or (.leaf (.char ']')) (.leaf opening)])
    (.leaf (.tally "other" .anyChar))

end Marks

open Marks in
open GrammarParser.Brackets (environment inputs) in
/-- The third alternative is counted, and the fourth is not. The second time, the rule of a grammar
was used before. -/
theorem endsIn_parser_iff_marks :
    (∃ t, marks.parser.EndsIn environment {} (inputs.start ⟨0⟩) {}
      (.ok (.success '[' (Cursor.next (inputs.start ⟨0⟩)))) t ∧
      t.calls.find? "opening" = some 1 ∧ t.calls.find? "other" = none) ∧
    marks.parser.RunsTo environment {} (inputs.start ⟨0⟩)
      ((rule GrammarParser.Brackets.rule).run environment 12 {} (inputs.start ⟨0⟩) {}).2
      (.success '[' (Cursor.next (inputs.start ⟨0⟩))) := by
  obtain ⟨-, hordered, hany⟩ := endsIn_parser_iff environment {} marks (inputs.start ⟨0⟩)
  constructor
  · refine ⟨(opening.run environment 3 {} (inputs.start ⟨0⟩) {}).2,
      (hordered {} _ _).mpr ⟨[.char 'a', .char ']'], opening, _, {}, rfl, ?_, ?_, ?_⟩, rfl, rfl⟩
    · exact .cons rfl ⟨by simp, 2, rfl⟩ (.cons rfl ⟨by simp, 2, rfl⟩ (.nil _))
    · exact ⟨by simp, 3, rfl⟩
    · rintro ⟨r, -, h⟩
      cases h
  · have hrun : ((rule GrammarParser.Brackets.rule).run environment 12 {} (inputs.start ⟨0⟩) {}).1 =
        .ok (.success 1 ⟨['[', 'x', ']'], [], 3, .offset 3, ⟨0⟩⟩) := rfl
    have hrule : GrammarParser.Brackets.grammar.Reachable inputs environment
        ((rule GrammarParser.Brackets.rule).run environment 12 {} (inputs.start ⟨0⟩) {}).2 :=
      .run (.start rfl) ⟨0, rfl⟩ (Prod.ext hrun rfl)
    refine (hany inputs _ _ _ hrule ⟨0, rfl⟩).mpr
      ⟨[.char 'a', .char ']'], opening, _, rfl, ?_, ?_, ?_⟩
    · intro q hq
      rcases List.mem_pair.mp hq with rfl | rfl
      · exact ⟨_, rfl, .of_run (n := 2) rfl⟩
      · exact ⟨_, rfl, .of_run (n := 2) rfl⟩
    · exact .of_run (n := 3) rfl
    · intro h
      cases h

end Choices

end Parsing
