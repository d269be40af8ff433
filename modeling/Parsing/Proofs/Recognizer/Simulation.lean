import Parsing.Recognizer.Choice
import Parsing.Recognizer.Joined
import Parsing.Recognizer.Lookahead
import Parsing.Recognizer.Span
import Parsing.Proofs.Recognizer.Unrolled

/-!
# Two recognizers side by side

Whatever runs other recognizers is made of successes, failures and `Recognizer.branch`. So a
relation between two kinds of runs that holds of successes and of failures, and that `branch`
respects (a `Simulation`), holds of everything that two sides make of related recognizers in the
same way. There is one lemma for each of the combinators.

The two sides may read different inputs: a `Correspondence` says which cursors and which locations
belong together. A loop also stops when it has gone round as often as it may, and needs to know that
such stops are related (`Simulation.related_openEnded`, `Simulation.related_pairs`).
-/

namespace Parsing

open Recognizer

universe u v

/-- Which cursors and which locations of two inputs belong together. -/
structure Correspondence (C D : Type) {T U : outParam Type} [Cursor C T] [Cursor D U] where
  cursor : C → D → Prop
  location : Location → Location → Prop
  location_of_cursor {c : C} {d : D} :
    cursor c d → location (Cursor.location c) (Cursor.location d)
  isEmpty_eq {c : C} {d : D} : cursor c d → Cursor.isEmpty c = Cursor.isEmpty d
  position_eq_iff {c c' : C} {d d' : D} : cursor c d → cursor c' d' →
    (Cursor.position c' = Cursor.position c ↔ Cursor.position d' = Cursor.position d)

namespace Correspondence

variable {C D T U : Type} [Cursor C T] [Cursor D U]

/-- Two reports that differ in the input only. -/
structure Reason (K : Correspondence C D) (r r' : NoSuccess) : Prop where
  severity_eq : r.severity = r'.severity
  expected_eq : r.expected = r'.expected
  location : K.location r.location r'.location

/-- Every cursor with a property belongs to itself. -/
def identity (P : C → Prop) : Correspondence C C where
  cursor c d := c = d ∧ P c
  location := Eq
  location_of_cursor h := congrArg Cursor.location h.1
  isEmpty_eq h := congrArg Cursor.isEmpty h.1
  position_eq_iff h h' := by rw [h.1, h'.1]

/-- Between cursors that are the same there are the same stretches. -/
theorem between_eq_of_identity {P : C → Prop} {c d c' d' : C} (h : (identity P).cursor c d)
    (h' : (identity P).cursor c' d') : Span.between c c' = Span.between d d' := by
  rw [h.1, h'.1]

/-- Reasons are related if they are the same. -/
theorem reason_identity {P : C → Prop} {r r' : NoSuccess} :
    (identity P).Reason r r' ↔ r = r' := by
  constructor
  · intro h
    cases r
    cases r'
    simp only [NoSuccess.mk.injEq]
    exact ⟨h.severity_eq, h.expected_eq, h.location⟩
  · rintro rfl
    exact ⟨rfl, rfl, rfl⟩

end Correspondence

/-- A relation between two kinds of runs that successes and failures are in and `branch`
respects. -/
structure Simulation (m : Type → Type u) (n : Type → Type v) [Monad m] [Monad n] {C D T U : Type}
    [Cursor C T] [Cursor D U] (K : Correspondence C D) where
  rel {α : Type} : m (Outcome C α) → n (Outcome D α) → Prop
  success {α : Type} (a : α) {c : C} {d : D} :
    K.cursor c d → rel (pure (.success a c)) (pure (.success a d))
  failure {α : Type} {r r' : NoSuccess} : K.Reason r r' → r.isFailure →
    rel (α := α) (pure (.noSuccess r)) (pure (.noSuccess r'))
  branch {α β : Type} {p : Recognizer m C α} {p' : Recognizer n D α}
    {next : α → Recognizer m C β} {next' : α → Recognizer n D β}
    {otherwise : NoSuccess → Recognizer m C β} {otherwise' : NoSuccess → Recognizer n D β}
    {c : C} {d : D} : rel (p c) (p' d) →
    (∀ a c d, K.cursor c d → rel (next a c) (next' a d)) →
    (∀ r r', K.Reason r r' → r.isFailure → rel (otherwise r c) (otherwise' r' d)) →
    rel (branch p next otherwise c) (branch p' next' otherwise' d)

namespace Simulation

variable {m : Type → Type u} {n : Type → Type v} [Monad m] [Monad n] {C D T U : Type}
  [Cursor C T] [Cursor D U] {K : Correspondence C D} (S : Simulation m n K) {α β γ : Type}
  {p : Recognizer m C α} {p' : Recognizer n D α} {q : Recognizer m C β} {q' : Recognizer n D β}

/-- Whether two recognizers are related at all cursors that belong together. -/
def Related (p : Recognizer m C α) (p' : Recognizer n D α) : Prop :=
  ∀ c d, K.cursor c d → S.rel (p c) (p' d)

/-- Values are related to themselves. -/
theorem related_succeed (a : α) : S.Related (succeed a) (succeed a) :=
  fun _ _ h => S.success a h

/-- Failures are related. -/
theorem related_fail (expected : String) :
    S.Related (fail expected : Recognizer m C α) (fail expected) :=
  fun _ _ h => S.failure ⟨rfl, rfl, K.location_of_cursor h⟩ rfl

/-- The end of the input is seen from both sides. -/
theorem related_eof : S.Related (eof : Recognizer m C Unit) eof := by
  intro c d h
  rw [eof, eof, ← K.isEmpty_eq h]
  split
  · exact S.related_succeed () c d h
  · exact S.related_fail "<EOF>" c d h

/-! ## One after another -/

/-- Chains at related cursors are related if their parts are. -/
theorem rel_chain {c : C} {d : D} {next : α → Recognizer m C β} {next' : α → Recognizer n D β}
    (hp : S.rel (p c) (p' d)) (hnext : ∀ a, S.Related (next a) (next' a)) :
    S.rel (chain p next c) (chain p' next' d) :=
  S.branch hp hnext fun _ _ hr hfail => S.failure hr hfail

/-- Chains are related if their parts are. -/
theorem related_chain {next : α → Recognizer m C β} {next' : α → Recognizer n D β}
    (hp : S.Related p p') (hnext : ∀ a, S.Related (next a) (next' a)) :
    S.Related (chain p next) (chain p' next') :=
  fun c d h => S.rel_chain (hp c d h) hnext

/-- Mapping keeps the relation. -/
theorem related_map (f : α → β) (hp : S.Related p p') : S.Related (map f p) (map f p') :=
  S.related_chain hp fun a => S.related_succeed (f a)

/-- Two recognizers in turn are related if both are. -/
theorem related_zip (f : α → β → γ) (hp : S.Related p p') (hq : S.Related q q') :
    S.Related (zip f p q) (zip f p' q') :=
  S.related_chain hp fun a => S.related_map (f a) hq

/-- Sequences are related if their parts are. -/
theorem related_sequence {k : Nat} {ps : Fin k → Recognizer m C α} {ps' : Fin k → Recognizer n D α}
    (h : ∀ i, S.Related (ps i) (ps' i)) :
    S.Related (sequence (List.ofFn ps)) (sequence (List.ofFn ps')) := by
  induction k with
  | zero =>
    rw [List.ofFn_zero, List.ofFn_zero]
    exact S.related_succeed []
  | succ k ih =>
    rw [List.ofFn_succ, List.ofFn_succ]
    exact S.related_zip List.cons (h 0) (ih fun i => h i.succ)

/-! ## Choice -/

/-- Ways out of a failure are related if they are for related reasons. -/
theorem related_recover {handle : NoSuccess → Recognizer m C α}
    {handle' : NoSuccess → Recognizer n D α} (hp : S.Related p p')
    (hhandle : ∀ r r', K.Reason r r' → r.isFailure → S.Related (handle r) (handle' r')) :
    S.Related (recover p handle) (recover p' handle') :=
  fun c d h => S.branch (hp c d h) S.related_succeed
    fun r r' hr hfail => hhandle r r' hr hfail c d h

/-- Choices between two are related if both sides are. -/
theorem related_or {q : Recognizer m C α} {q' : Recognizer n D α} (hp : S.Related p p')
    (hq : S.Related q q') : S.Related (or p q) (or p' q') :=
  S.related_recover hp fun _ _ _ _ => hq

/-- Choices among several are related if all parts are. -/
theorem related_choice {k : Nat} {ps : Fin k → Recognizer m C α} {ps' : Fin k → Recognizer n D α}
    (h : ∀ i, S.Related (ps i) (ps' i)) :
    S.Related (choice (List.ofFn ps)) (choice (List.ofFn ps')) := by
  induction k with
  | zero =>
    rw [List.ofFn_zero, List.ofFn_zero]
    exact S.related_fail "<no alternatives>"
  | succ k ih =>
    -- the last alternative is not guarded, so a list of one is a case of its own
    cases k with
    | zero =>
      rw [List.ofFn_succ, List.ofFn_succ, List.ofFn_zero, List.ofFn_zero]
      exact h 0
    | succ k =>
      have hrest := ih fun i => h i.succ
      rw [List.ofFn_succ, List.ofFn_succ] at hrest ⊢
      rw [List.ofFn_succ, List.ofFn_succ]
      exact S.related_recover (h 0) fun _ _ _ _ => hrest

/-- Optional recognizers are related. -/
theorem related_optional (hp : S.Related p p') : S.Related (optional p) (optional p') :=
  S.related_recover (S.related_map some hp) fun _ _ _ _ => S.related_succeed none

/-- Recognizers with a default are related. -/
theorem related_orElse (default : α) (hp : S.Related p p') :
    S.Related (orElse default p) (orElse default p') :=
  S.related_recover hp fun _ _ _ _ => S.related_succeed default

/-- Names keep the relation. -/
theorem related_named (name : String) (hp : S.Related p p') :
    S.Related (named name p) (named name p') :=
  S.related_recover hp fun _ _ hr hfail _ _ _ =>
    S.failure ⟨hr.severity_eq, rfl, hr.location⟩ hfail

/-! ## Conditions -/

/-- Filters keep the relation. -/
theorem related_filter (accepts : α → Bool) (expected : String) (hp : S.Related p p') :
    S.Related (filter accepts expected p) (filter accepts expected p') := by
  intro c d h
  refine S.rel_chain (hp c d h) fun a => ?_
  split
  · exact S.related_succeed a
  · exact fun _ _ _ => S.related_fail expected c d h

/-- Looking ahead keeps the relation. -/
theorem related_lookahead (hp : S.Related p p') : S.Related (lookahead p) (lookahead p') :=
  fun c d h => S.rel_chain (hp c d h) fun a _ _ _ => S.related_succeed a c d h

/-- Looking for what must not be there keeps the relation. -/
theorem related_not (expected : String) (hp : S.Related p p') :
    S.Related (not expected p) (not expected p') :=
  fun c d h => S.branch (hp c d h) (fun _ _ _ _ => S.related_fail expected c d h)
    fun _ _ _ _ => S.related_succeed () c d h

/-! ## Spans -/

/-- Recognizers with their spans are related if stretches look the same from both sides. -/
theorem related_withSpan (hp : S.Related p p')
    (hspan : ∀ {c d c' d'}, K.cursor c d → K.cursor c' d' → Span.between c c' = Span.between d d') :
    S.Related (withSpan p) (withSpan p') := by
  intro c d h
  refine S.rel_chain (hp c d h) fun a c' d' h' => ?_
  rw [hspan h h']
  exact S.success _ h'

/-! ## Repetition -/

/-- Loops of fixed length are related. -/
theorem related_times (hp : S.Related p p') (k : Nat) : S.Related (times p k) (times p' k) := by
  induction k with
  | zero => exact S.related_succeed []
  | succ k ih => exact S.related_zip List.cons hp ih

/-- Loops with an upper bound are related. -/
theorem related_upTo (hp : S.Related p p') (k : Nat) : S.Related (upTo p k) (upTo p' k) := by
  induction k with
  | zero => exact S.related_succeed []
  | succ k ih =>
    exact fun c d h => S.branch (hp c d h) (fun a => S.related_map (List.cons a) ih)
      fun _ _ _ _ => S.related_succeed [] c d h

variable [Halting m] [Halting n]

/-- A loop that may go round `k` times is related to one that may go round `l` times more, if its
stop is related to what the other one does then. -/
theorem related_openEnded (hp : S.Related p p') (k : Nat) {l : Nat}
    (hstop : S.Related (fun _ => halt .outOfFuel) (openEnded p' l)) :
    S.Related (openEnded p k) (openEnded p' (k + l)) := by
  induction k with
  | zero =>
    rw [Nat.zero_add]
    exact hstop
  | succ k ih =>
    intro c d h
    rw [Nat.succ_add]
    refine S.branch (hp c d h) (fun a c' d' h' => ?_) fun _ _ _ _ => S.related_succeed [] c d h
    simp only [K.position_eq_iff h h']
    split
    · exact S.related_succeed [a] c' d' h'
    · exact S.related_map (List.cons a) ih c' d' h'

/-- Loops over pairs are related, up to the bound of the first one. -/
theorem related_pairs (hp : S.Related p p') (hq : S.Related q q') (k : Nat) {l : Nat}
    (hstop : S.Related (fun _ => halt .outOfFuel) (pairs q' p' l)) :
    S.Related (pairs q p k) (pairs q' p' (k + l)) := by
  induction k with
  | zero =>
    rw [Nat.zero_add]
    exact hstop
  | succ k ih =>
    rw [Nat.succ_add]
    refine S.related_chain (S.related_optional (S.related_zip Prod.mk hq hp)) fun pair => ?_
    cases pair with
    | none => exact S.related_succeed []
    | some pair => exact S.related_map (List.cons pair) ih

section Loops

variable {fuel fuel' : Nat}

section

variable [Halting.Lawful m] [Halting.Lawful n]

/-- Reading any number of times is related if the loops are. -/
theorem related_many (hloop : S.Related (openEnded p fuel) (openEnded p' fuel')) :
    S.Related (many fuel p) (many fuel' p') := by
  rw [many_eq, many_eq]
  exact hloop

/-- Reading at least once is related if the loops are. -/
theorem related_manyOne (hp : S.Related p p')
    (hloop : S.Related (openEnded p fuel) (openEnded p' fuel')) :
    S.Related (manyOne fuel p) (manyOne fuel' p') := by
  rw [manyOne_eq, manyOne_eq]
  intro c d h
  refine S.rel_chain (hp c d h) fun a c' d' h' => ?_
  simp only [K.position_eq_iff h h']
  split
  · exact S.related_succeed [a] c' d' h'
  · exact S.related_map (List.cons a) hloop c' d' h'

/-- Repetitions are related if the loops are. -/
theorem related_repeated (range : CountRange) (hp : S.Related p p')
    (hloop : S.Related (openEnded p fuel) (openEnded p' fuel')) :
    S.Related (repeated fuel range p) (repeated fuel' range p') := by
  rw [repeated_eq, repeated_eq]
  split
  · exact S.related_succeed []
  · refine S.related_zip (· ++ ·) (S.related_times hp range.least) ?_
    split
    · exact S.related_upTo hp _
    · exact hloop

end

/-- Elements with separators are related if the loops over pairs are. -/
theorem related_joined (hp : S.Related p p')
    (hloop : S.Related (pairs q p fuel) (pairs q' p' fuel')) :
    S.Related (joined fuel p q) (joined fuel' p' q') :=
  S.related_zip Prod.mk hp hloop

end Loops

end Simulation

end Parsing
