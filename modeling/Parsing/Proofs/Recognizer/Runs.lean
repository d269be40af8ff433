import Parsing.Recognizer.Basic

/-!
# What a run comes to

Recognizers that run others by `branch` come to an outcome just if the others do, one after another:
each where the one before ended, and in the state that it left (`run_branch_iff`). A sequence of
them is a list of successes in turn (`InTurn`).
-/

namespace Parsing.Recognizer

variable {σ C α β γ : Type} {c d : C} {s t u : σ} {p : Recognizer (Effect σ) C α}

/-! ## Branches -/

/-- After a success, a branch goes on with the value. -/
theorem run_branch_success {p : Recognizer (Effect σ) C α} {next : α → Recognizer (Effect σ) C β}
    {otherwise : NoSuccess → Recognizer (Effect σ) C β} {a : α}
    (h : (p c).run s = (.ok (.success a d), t)) :
    (branch p next otherwise c).run s = (next a d).run t := by
  rw [branch, Effect.run_bind, h]

/-- After a failure, a branch goes its other way, from where it began. -/
theorem run_branch_failure {p : Recognizer (Effect σ) C α} {next : α → Recognizer (Effect σ) C β}
    {otherwise : NoSuccess → Recognizer (Effect σ) C β} {r : NoSuccess} (hr : r.isFailure = true)
    (h : (p c).run s = (.ok (.noSuccess r), t)) :
    (branch p next otherwise c).run s = (otherwise r c).run t := by
  rw [branch, Effect.run_bind, h]
  simp only [hr, if_true]

/-- After an error, a branch is at its end. -/
theorem run_branch_error {p : Recognizer (Effect σ) C α} {next : α → Recognizer (Effect σ) C β}
    {otherwise : NoSuccess → Recognizer (Effect σ) C β} {r : NoSuccess} (hr : r.isFailure ≠ true)
    (h : (p c).run s = (.ok (.noSuccess r), t)) :
    (branch p next otherwise c).run s = (.ok (.noSuccess r), t) := by
  rw [branch, Effect.run_bind, h]
  simp only [hr]
  rfl

/-- What is done about a failure does not matter where there is none. -/
theorem run_branch_congr {next : α → Recognizer (Effect σ) C β}
    {otherwise otherwise' : NoSuccess → Recognizer (Effect σ) C β}
    (h : ∀ r t, (p c).run s = (.ok (.noSuccess r), t) → r.isFailure = false) :
    (branch p next otherwise c).run s = (branch p next otherwise' c).run s := by
  rw [branch, branch, Effect.run_bind, Effect.run_bind]
  rcases hp : (p c).run s with ⟨halt | ⟨a, d⟩ | r, t⟩
  · rfl
  · rfl
  · simp only [h r t hp]
    rfl

/-- Whether this is what is done about a recognizer that does not succeed. -/
def FallsBack (p : Recognizer (Effect σ) C α) (otherwise : NoSuccess → Recognizer (Effect σ) C β)
    (c : C) (s : σ) (o : Outcome C β) (u : σ) : Prop :=
  ∃ r t, (p c).run s = (.ok (.noSuccess r), t) ∧
    if r.isFailure then (otherwise r c).run t = (.ok o, u) else o = .noSuccess r ∧ u = t

/-- A branch comes to what follows a success, or to what it falls back on. -/
theorem run_branch_iff {next : α → Recognizer (Effect σ) C β}
    {otherwise : NoSuccess → Recognizer (Effect σ) C β} {o : Outcome C β} :
    (branch p next otherwise c).run s = (.ok o, u) ↔
      (∃ a d t, (p c).run s = (.ok (.success a d), t) ∧ (next a d).run t = (.ok o, u)) ∨
      FallsBack p otherwise c s o u := by
  constructor
  · intro hrun
    -- by what the first part has come to
    rcases hp : (p c).run s with ⟨halt | ⟨a, d⟩ | r, t⟩
    · rw [branch, Effect.run_bind, hp] at hrun
      cases hrun
    · rw [run_branch_success hp] at hrun
      exact .inl ⟨a, d, t, rfl, hrun⟩
    · refine .inr ⟨r, t, hp, ?_⟩
      split
      · rename_i hr
        rwa [run_branch_failure hr hp] at hrun
      · rename_i hr
        rw [run_branch_error hr hp] at hrun
        cases hrun
        exact ⟨rfl, rfl⟩
  · rintro (⟨a, d, t, hp, hrun⟩ | ⟨r, t, hp, hend⟩)
    · rwa [run_branch_success hp]
    · split at hend
      · rename_i hr
        rwa [run_branch_failure hr hp]
      · rename_i hr
        obtain ⟨rfl, rfl⟩ := hend
        exact run_branch_error hr hp

/-- What is fallen back on is given at once if it does not run anything. -/
theorem fallsBack_iff {otherwise : NoSuccess → Recognizer (Effect σ) C β}
    (give : NoSuccess → Outcome C β) (h : ∀ r, otherwise r c = pure (give r)) {o : Outcome C β} :
    FallsBack p otherwise c s o u ↔ ∃ r, (p c).run s = (.ok (.noSuccess r), u) ∧
      o = if r.isFailure then give r else .noSuccess r := by
  refine exists_congr fun r => ?_
  rw [h]
  constructor
  · rintro ⟨t, hp, hend⟩
    split at hend
    · rename_i hr
      cases hend
      exact ⟨hp, (if_pos hr).symm⟩
    · rename_i hr
      obtain ⟨rfl, rfl⟩ := hend
      exact ⟨hp, (if_neg hr).symm⟩
  · rintro ⟨hp, rfl⟩
    refine ⟨u, hp, ?_⟩
    split
    · rfl
    · exact ⟨rfl, rfl⟩

/-- Reporting passes on the reason. -/
theorem fallsBack_report_iff {o : Outcome C β} :
    FallsBack p report c s o u ↔ ∃ r, (p c).run s = (.ok (.noSuccess r), u) ∧ o = .noSuccess r := by
  rw [fallsBack_iff .noSuccess fun _ => rfl]
  simp only [ite_self]

/-- A value is given for a failure, and an error is passed on. -/
theorem fallsBack_succeed_iff {b : β} {o : Outcome C β} :
    FallsBack p (fun _ => succeed b) c s o u ↔
      ∃ r, (p c).run s = (.ok (.noSuccess r), u) ∧
        o = if r.isFailure then .success b c else .noSuccess r :=
  fallsBack_iff _ fun _ => rfl

/-- A chain comes to what follows a success, or passes on the reason. -/
theorem run_chain_iff {next : α → Recognizer (Effect σ) C β} {o : Outcome C β} :
    (chain p next c).run s = (.ok o, u) ↔
      (∃ a d t, (p c).run s = (.ok (.success a d), t) ∧ (next a d).run t = (.ok o, u)) ∨
      ∃ r, (p c).run s = (.ok (.noSuccess r), u) ∧ o = .noSuccess r := by
  rw [chain, run_branch_iff, fallsBack_report_iff]

/-- A mapped recognizer comes to the images of outcomes. -/
theorem run_map_iff {f : α → β} {o : Outcome C β} :
    (map f p c).run s = (.ok o, u) ↔ ∃ o', (p c).run s = (.ok o', u) ∧ o = o'.map f := by
  rw [map, run_chain_iff]
  constructor
  · rintro (⟨a, d, t, hp, h⟩ | ⟨r, hp, rfl⟩)
    · cases h
      exact ⟨_, hp, rfl⟩
    · exact ⟨_, hp, rfl⟩
  · rintro ⟨⟨a, d⟩ | r, hp, rfl⟩
    · exact .inl ⟨a, d, u, hp, rfl⟩
    · exact .inr ⟨r, hp, rfl⟩

/-- A mapped recognizer succeeds with the images of values. -/
theorem run_map_success_iff {f : α → β} {b : β} :
    (map f p c).run s = (.ok (.success b d), u) ↔
      ∃ a, (p c).run s = (.ok (.success a d), u) ∧ b = f a := by
  rw [run_map_iff]
  constructor
  · rintro ⟨o, hp, heq⟩
    cases o with
    | success a e =>
      cases heq
      exact ⟨a, hp, rfl⟩
    | noSuccess r => cases heq
  · rintro ⟨a, hp, rfl⟩
    exact ⟨_, hp, rfl⟩

/-- Two recognizers in turn come to what the second one does, or pass on the reason of the first
one. -/
theorem run_zip_iff {f : α → β → γ} {q : Recognizer (Effect σ) C β} {o : Outcome C γ} :
    (zip f p q c).run s = (.ok o, u) ↔
      (∃ a d t o', (p c).run s = (.ok (.success a d), t) ∧ (q d).run t = (.ok o', u) ∧
        o = o'.map (f a)) ∨
      ∃ r, (p c).run s = (.ok (.noSuccess r), u) ∧ o = .noSuccess r := by
  simp only [zip, run_chain_iff, run_map_iff, exists_and_left]

/-- Two recognizers in turn succeed where the second one does behind the first one. -/
theorem run_zip_success_iff {q : Recognizer (Effect σ) C β} {f : α → β → γ} {v : γ} :
    (zip f p q c).run s = (.ok (.success v d), u) ↔
      ∃ a e t b, (p c).run s = (.ok (.success a e), t) ∧
        (q e).run t = (.ok (.success b d), u) ∧ v = f a b := by
  rw [zip, run_chain_iff]
  simp only [run_map_success_iff, reduceCtorEq, and_false, exists_false, or_false,
    exists_and_left]

/-- Mapping does not change whether there is an outcome. -/
theorem exists_run_map_iff (f : α → γ) :
    (∃ o t, (map f p c).run s = (.ok o, t)) ↔ ∃ o t, (p c).run s = (.ok o, t) := by
  simp only [run_map_iff]
  constructor
  · rintro ⟨_, t, o, hrun, -⟩
    exact ⟨o, t, hrun⟩
  · rintro ⟨o, t, hrun⟩
    exact ⟨_, t, o, hrun, rfl⟩

/-! ## Sequences -/

/-- Successes of recognizers, each where the one before it ended. With the cursors stand the
states. -/
inductive InTurn : List (Recognizer (Effect σ) C α) → C × σ → List α → C × σ → Prop where
  | nil (k : C × σ) : InTurn [] k [] k
  | cons {p : Recognizer (Effect σ) C α} {ps : List (Recognizer (Effect σ) C α)} {c d : C} {s t : σ}
    {a : α} {as : List α} {l : C × σ} (hp : (p c).run s = (.ok (.success a d), t))
    (h : InTurn ps (d, t) as l) : InTurn (p :: ps) (c, s) (a :: as) l

section

variable {ps : List (Recognizer (Effect σ) C α)} {as : List α} {k l : C × σ}

/-- A sequence succeeds where its parts do in turn. -/
theorem run_sequence_success_iff :
    (sequence ps c).run s = (.ok (.success as d), u) ↔ InTurn ps (c, s) as (d, u) := by
  induction ps generalizing c s as with
  | nil =>
    constructor
    · intro h
      cases h
      exact .nil _
    · intro h
      cases h
      rfl
  | cons p ps ih =>
    rw [sequence, run_zip_success_iff]
    constructor
    · rintro ⟨a, e, t, as, hp, hps, rfl⟩
      exact .cons hp (ih.mp hps)
    · intro h
      cases h with
      | cons hp h => exact ⟨_, _, _, _, hp, ih.mpr h, rfl⟩

/-- In turn the same recognizers come to the same. -/
theorem InTurn.unique {bs : List α} {l' : C × σ} (h : InTurn ps k as l) (h' : InTurn ps k bs l') :
    as = bs ∧ l = l' := by
  obtain ⟨c, s⟩ := k
  obtain ⟨d, t⟩ := l
  obtain ⟨d', t'⟩ := l'
  have heq := (run_sequence_success_iff.mpr h).symm.trans (run_sequence_success_iff.mpr h')
  cases heq
  exact ⟨rfl, rfl⟩

/-- Each part that runs in turn gives one value. -/
theorem InTurn.length_eq (h : InTurn ps k as l) : as.length = ps.length := by
  induction h with
  | nil => rfl
  | cons _ _ ih => exact congrArg Nat.succ ih

/-- Each of the recognizers in its turn. -/
theorem InTurn.split (h : InTurn ps k as l) {i : Nat} (hi : i < ps.length) :
    ∃ a c s d t, as[i]? = some a ∧ InTurn (ps.take i) k (as.take i) (c, s) ∧
      (ps[i] c).run s = (.ok (.success a d), t) ∧
      InTurn (ps.drop (i + 1)) (d, t) (as.drop (i + 1)) l := by
  induction h generalizing i with
  | nil => cases hi
  | @cons p ps c d s t a as l hp h ih =>
    cases i with
    | zero => exact ⟨a, c, s, d, t, rfl, .nil _, hp, h⟩
    | succ i =>
      obtain ⟨b, c', s', d', t', hb, hbefore, hrun, hbehind⟩ := ih (Nat.lt_of_succ_lt_succ hi)
      exact ⟨b, c', s', d', t', hb, .cons hp hbefore, hrun, hbehind⟩

end

end Parsing.Recognizer
