import Mathlib.Data.Nat.Notation
import Mathlib.Logic.Basic
import Parsing.Proofs.Recognizer.Runs
import Parsing.Proofs.Recognizer.Unrolled

/-!
# Rounds of loops

A loop applies a recognizer again and again, each time where it was after the round before. The
rounds behind which a loop goes on are a `Series`. A loop that comes to an outcome has a series of
rounds behind it, and then either no further one is due or it ends with one more
(`IsLoop.run_iff`). The loops of repetitions differ in which rounds they go on behind and in what
they do after a failure.
-/

namespace Parsing

open Cursor

/-! ## Values of several rounds -/

namespace Outcome

variable {C α : Type} {as bs : List α} {c d : C} {r r' : NoSuccess}

/-- Nothing may be put in front of values. -/
theorem map_nil_append (o : Outcome C (List α)) : o.map ([] ++ ·) = o := by
  cases o <;> rfl

/-- Putting values in front, and then one more, is putting all of them in front. -/
theorem map_cons_map_append (a : α) (as : List α) (o : Outcome C (List α)) :
    (o.map (as ++ ·)).map (List.cons a) = o.map (a :: as ++ ·) := by
  cases o <;> rfl

/-- What is made of the values of rounds where the next one does not succeed: after a failure they
are kept, in front of that round. -/
def givenUp (as : List α) (c : C) (r : NoSuccess) : Outcome C (List α) :=
  if r.isFailure then .success as c else .noSuccess r

/-- After a failure a loop gives its values up to there, and an error it passes on. -/
theorem map_append_ite (as : List α) (c : C) (r : NoSuccess) :
    (if r.isFailure then success [] c else .noSuccess r).map (as ++ ·) = givenUp as c r := by
  unfold givenUp
  split
  · exact congrArg (success · c) (List.append_nil as)
  · rfl

/-- A loop that gives values up has met a failure, and gives those before it. -/
theorem success_eq_givenUp_iff :
    success bs d = givenUp as c r ↔ r.isFailure = true ∧ bs = as ∧ d = c := by
  unfold givenUp
  split <;> simp_all

/-- A loop that passes a reason on has met an error. -/
theorem noSuccess_eq_givenUp_iff :
    noSuccess r' = givenUp as c r ↔ r.isFailure = false ∧ r' = r := by
  unfold givenUp
  split <;> simp_all

end Outcome

namespace Recognizer

variable {σ C T α β γ : Type} [Cursor C T] {c d : C} {s t u : σ} {k l m : C × σ}
  {p : Recognizer (Effect σ) C α}

/-! ## Rounds -/

/-- The rounds behind which a loop goes on: applications of a recognizer, each where the one before
ended, that lead from one cursor to the next as `goesOn` says. With the cursors stand the states. -/
inductive Series (goesOn : C → C → Prop) (p : Recognizer (Effect σ) C α) :
    C × σ → List α → C × σ → Prop where
  | nil (k : C × σ) : Series goesOn p k [] k
  | cons {c d : C} {s t : σ} {a : α} {as : List α} {l : C × σ}
    (hp : (p c).run s = (.ok (.success a d), t)) (hd : goesOn c d)
    (h : Series goesOn p (d, t) as l) : Series goesOn p (c, s) (a :: as) l

/-- A series of any applications. -/
abbrev Applies (p : Recognizer (Effect σ) C α) : C × σ → List α → C × σ → Prop :=
  Series (fun _ _ => True) p

/-- A series of applications that all consume something. -/
abbrev Advances (p : Recognizer (Effect σ) C α) : C × σ → List α → C × σ → Prop :=
  Series (fun c d => Cursor.position d ≠ Cursor.position c) p

variable {goesOn goesOn' : C → C → Prop} {as bs : List α}

/-- The condition between rounds may be weakened. -/
theorem Series.imp (h : Series goesOn p k as l) (himp : ∀ c d, goesOn c d → goesOn' c d) :
    Series goesOn' p k as l := by
  induction h with
  | nil k => exact .nil k
  | cons hp hd _ ih => exact .cons hp (himp _ _ hd) ih

/-- Two series of rounds may follow one another. -/
theorem Series.append (h : Series goesOn p k as l) (h' : Series goesOn p l bs m) :
    Series goesOn p k (as ++ bs) m := by
  induction h with
  | nil k => exact h'
  | cons hp hd _ ih => exact .cons hp hd (ih h')

/-! ## Loops -/

/-- Whether this is what a loop comes to by a round behind which it does not go on. -/
def LastRound (goesOn : C → C → Prop) (p : Recognizer (Effect σ) C α)
    (otherwise : NoSuccess → Recognizer (Effect σ) C (List α)) (k : C × σ)
    (o : Outcome C (List α)) (u : σ) : Prop :=
  (∃ a d, (p k.1).run k.2 = (.ok (.success a d), u) ∧ ¬ goesOn k.1 d ∧ o = .success [a] d) ∨
  FallsBack p otherwise k.1 k.2 o u

section

variable [∀ c d, Decidable (goesOn c d)]

/-- Whether recognizers, one for each number of rounds, are a loop. -/
def IsLoop (goesOn : C → C → Prop) [∀ c d, Decidable (goesOn c d)] (p : Recognizer (Effect σ) C α)
    (otherwise : NoSuccess → Recognizer (Effect σ) C (List α))
    (loop : ℕ → Recognizer (Effect σ) C (List α)) : Prop :=
  ∀ n c, loop (n + 1) c = branch p
    (fun a d => if goesOn c d then map (List.cons a) (loop n) d else succeed [a] d) otherwise c

variable {otherwise : NoSuccess → Recognizer (Effect σ) C (List α)}
  {loop : ℕ → Recognizer (Effect σ) C (List α)}

/-- A loop comes to an outcome just if it goes on behind as many rounds as it may, or behind fewer
and ends with one more. The values are those of all rounds. -/
theorem IsLoop.run_iff (h : IsLoop goesOn p otherwise loop) {n : ℕ} {o : Outcome C (List α)} :
    (loop n c).run s = (.ok o, u) ↔
      ∃ as l o', Series goesOn p (c, s) as l ∧ o = o'.map (as ++ ·) ∧
        (as.length = n ∧ (loop 0 l.1).run l.2 = (.ok o', u) ∨
          as.length < n ∧ LastRound goesOn p otherwise l o' u) := by
  induction n generalizing c s o with
  | zero =>
    constructor
    · intro hrun
      exact ⟨[], (c, s), o, .nil _, (Outcome.map_nil_append o).symm, .inl ⟨rfl, hrun⟩⟩
    · rintro ⟨as, l, o', hseries, rfl, ⟨hlength, hrun⟩ | ⟨hlt, -⟩⟩
      · cases List.length_eq_zero_iff.mp hlength
        cases hseries
        rwa [Outcome.map_nil_append]
      · exact absurd hlt (Nat.not_lt_zero _)
  | succ n ih =>
    -- the first round is the branch's, and those behind it are rounds of the loop where it ended
    rw [h n c, run_branch_iff]
    constructor
    · rintro (⟨a, d, t, hp, hnext⟩ | hfallsBack)
      · by_cases hd : goesOn c d
        · rw [if_pos hd, run_map_iff] at hnext
          obtain ⟨_, hrun, rfl⟩ := hnext
          obtain ⟨as, l, o', hseries, rfl, hend⟩ := ih.mp hrun
          refine ⟨a :: as, l, o', .cons hp hd hseries, Outcome.map_cons_map_append a as o', ?_⟩
          exact hend.imp (And.imp_left (congrArg Nat.succ)) (And.imp_left Nat.succ_lt_succ)
        · rw [if_neg hd] at hnext
          cases hnext
          exact ⟨[], (c, s), _, .nil _, rfl, .inr ⟨Nat.succ_pos n, .inl ⟨a, d, hp, hd, rfl⟩⟩⟩
      · exact ⟨[], (c, s), o, .nil _, (Outcome.map_nil_append o).symm,
          .inr ⟨Nat.succ_pos n, .inr hfallsBack⟩⟩
    · rintro ⟨as, l, o', hseries, rfl, hend⟩
      cases hseries with
      | nil =>
        rw [Outcome.map_nil_append]
        rcases hend with ⟨hlength, -⟩ | ⟨-, ⟨a, d, hp, hd, rfl⟩ | hfallsBack⟩
        · cases hlength
        · refine .inl ⟨a, d, u, hp, ?_⟩
          rw [if_neg hd]
          rfl
        · exact .inr hfallsBack
      | @cons _ d _ t a as _ hp hd hseries =>
        refine .inl ⟨a, d, t, hp, ?_⟩
        rw [if_pos hd, run_map_iff]
        refine ⟨_, ih.mpr ⟨as, l, o', hseries, rfl, ?_⟩, (Outcome.map_cons_map_append a as o').symm⟩
        exact hend.imp (And.imp_left Nat.succ.inj) (And.imp_left Nat.lt_of_succ_lt_succ)

end

/-! ## The loops of repetitions -/

/-- The loop of fixed length is one that reports what ends it. -/
theorem isLoop_times (p : Recognizer (Effect σ) C α) :
    IsLoop (fun _ _ => True) p report (times p) :=
  fun _ _ => rfl

/-- The loop with an upper bound is one that is content with what it has. -/
theorem isLoop_upTo (p : Recognizer (Effect σ) C α) :
    IsLoop (fun _ _ => True) p (fun _ => succeed []) (upTo p) :=
  fun _ _ => rfl

/-- The loop without a bound is one that stops where nothing is consumed. -/
theorem isLoop_openEnded (p : Recognizer (Effect σ) C α) :
    IsLoop (fun c d => Cursor.position d ≠ Cursor.position c) p (fun _ => succeed [])
      (openEnded p) := by
  intro n c
  simp only [ite_not]
  rfl

variable {n : ℕ} {o : Outcome C (List α)}

/-- A loop that goes on behind every round, and succeeds when none is due any more. -/
theorem IsLoop.run_iff_of_zero {otherwise : NoSuccess → Recognizer (Effect σ) C (List α)}
    {loop : ℕ → Recognizer (Effect σ) C (List α)} (h : IsLoop (fun _ _ => True) p otherwise loop)
    (hzero : loop 0 = succeed []) (give : NoSuccess → C → Outcome C (List α))
    (hgive : ∀ c r, otherwise r c = pure (give r c)) :
    (loop n c).run s = (.ok o, u) ↔
      ∃ as l, Applies p (c, s) as l ∧ (as.length = n ∧ o = .success as l.1 ∧ u = l.2 ∨
        as.length < n ∧ ∃ r, (p l.1).run l.2 = (.ok (.noSuccess r), u) ∧
          o = (if r.isFailure then give r l.1 else .noSuccess r).map (as ++ ·)) := by
  rw [h.run_iff, hzero]
  refine exists_congr fun as => exists_congr fun l => ?_
  have hkept : Outcome.success as l.1 = (Outcome.success [] l.1).map (as ++ ·) :=
    congrArg (Outcome.success · l.1) (List.append_nil as).symm
  constructor
  · rintro ⟨o', hseries, rfl, ⟨hlength, hend⟩ | ⟨hlt, ⟨a, d, -, hd, -⟩ | hfallsBack⟩⟩
    · cases hend
      exact ⟨hseries, .inl ⟨hlength, hkept.symm, rfl⟩⟩
    · exact absurd trivial hd
    · obtain ⟨r, hp, rfl⟩ := (fallsBack_iff _ (hgive l.1)).mp hfallsBack
      exact ⟨hseries, .inr ⟨hlt, r, hp, rfl⟩⟩
  · rintro ⟨hseries, ⟨hlength, rfl, rfl⟩ | ⟨hlt, r, hp, rfl⟩⟩
    · exact ⟨_, hseries, hkept, .inl ⟨hlength, rfl⟩⟩
    · exact ⟨_, hseries, rfl,
        .inr ⟨hlt, .inr ((fallsBack_iff _ (hgive l.1)).mpr ⟨r, hp, rfl⟩)⟩⟩

/-- A fixed number of rounds, all of which are to succeed. -/
theorem run_times_iff : (times p n c).run s = (.ok o, u) ↔
    ∃ as l, Applies p (c, s) as l ∧ (as.length = n ∧ o = .success as l.1 ∧ u = l.2 ∨
      as.length < n ∧ ∃ r, (p l.1).run l.2 = (.ok (.noSuccess r), u) ∧ o = .noSuccess r) := by
  rw [(isLoop_times p).run_iff_of_zero rfl (fun r _ => .noSuccess r) fun _ _ => rfl]
  simp only [ite_self, Outcome.map_noSuccess]

/-- A number of rounds, as far as they succeed. -/
theorem run_upTo_iff : (upTo p n c).run s = (.ok o, u) ↔
    ∃ as l, Applies p (c, s) as l ∧ (as.length = n ∧ o = .success as l.1 ∧ u = l.2 ∨
      as.length < n ∧ ∃ r, (p l.1).run l.2 = (.ok (.noSuccess r), u) ∧ o = .givenUp as l.1 r) := by
  rw [(isLoop_upTo p).run_iff_of_zero rfl (fun _ => .success []) fun _ _ => rfl]
  simp only [Outcome.map_append_ite]

/-- Rounds as far as they succeed and consume something, and one more that succeeds. -/
theorem run_openEnded_iff : (openEnded p n c).run s = (.ok o, u) ↔
    ∃ as l, Advances p (c, s) as l ∧ as.length < n ∧
      ((∃ a d, (p l.1).run l.2 = (.ok (.success a d), u) ∧
          Cursor.position d = Cursor.position l.1 ∧ o = .success (as ++ [a]) d) ∨
        ∃ r, (p l.1).run l.2 = (.ok (.noSuccess r), u) ∧ o = .givenUp as l.1 r) := by
  rw [(isLoop_openEnded p).run_iff]
  refine exists_congr fun as => exists_congr fun l => ?_
  constructor
  · rintro ⟨o', hseries, rfl, ⟨-, hend⟩ | ⟨hlt, ⟨a, d, hp, hd, rfl⟩ | hlast⟩⟩
    · cases hend
    · exact ⟨hseries, hlt, .inl ⟨a, d, hp, not_not.mp hd, rfl⟩⟩
    · obtain ⟨r, hp, rfl⟩ := fallsBack_succeed_iff.mp hlast
      exact ⟨hseries, hlt, .inr ⟨r, hp, Outcome.map_append_ite as l.1 r⟩⟩
  · rintro ⟨hseries, hlt, ⟨a, d, hp, hd, rfl⟩ | ⟨r, hp, rfl⟩⟩
    · exact ⟨_, hseries, rfl, .inr ⟨hlt, .inl ⟨a, d, hp, not_not.mpr hd, rfl⟩⟩⟩
    · exact ⟨_, hseries, (Outcome.map_append_ite as l.1 r).symm,
        .inr ⟨hlt, .inr (fallsBack_succeed_iff.mpr ⟨r, hp, rfl⟩)⟩⟩

/-! ### Successes and others -/

variable {r : NoSuccess}

/-- A loop of fixed length succeeds after that many rounds. -/
theorem run_times_success_iff : (times p n c).run s = (.ok (.success as d), u) ↔
    Applies p (c, s) as (d, u) ∧ as.length = n := by
  rw [run_times_iff]
  constructor
  · rintro ⟨as, l, happlies, ⟨hlength, heq, rfl⟩ | ⟨-, r, -, heq⟩⟩
    · cases heq
      exact ⟨happlies, hlength⟩
    · cases heq
  · rintro ⟨happlies, hlength⟩
    exact ⟨as, (d, u), happlies, .inl ⟨hlength, rfl, rfl⟩⟩

/-- A loop of fixed length ends without success in one of its rounds. -/
theorem run_times_noSuccess_iff : (times p n c).run s = (.ok (.noSuccess r), u) ↔
    ∃ as l, Applies p (c, s) as l ∧ as.length < n ∧ (p l.1).run l.2 = (.ok (.noSuccess r), u) := by
  rw [run_times_iff]
  refine exists_congr fun as => exists_congr fun l => and_congr_right fun _ => ?_
  simp only [reduceCtorEq, false_and, and_false, false_or, Outcome.noSuccess.injEq,
    exists_eq_right']

/-- A loop with an upper bound succeeds after that many rounds, or where one fails. -/
theorem run_upTo_success_iff : (upTo p n c).run s = (.ok (.success as d), u) ↔
    ∃ t, Applies p (c, s) as (d, t) ∧ (as.length = n ∧ u = t ∨
      as.length < n ∧ ∃ r, (p d).run t = (.ok (.noSuccess r), u) ∧ r.isFailure = true) := by
  rw [run_upTo_iff]
  simp only [Outcome.success_eq_givenUp_iff]
  constructor
  · rintro ⟨as, l, happlies, ⟨hlength, heq, rfl⟩ | ⟨hlt, r, hp, hr, rfl, rfl⟩⟩
    · cases heq
      exact ⟨l.2, happlies, .inl ⟨hlength, rfl⟩⟩
    · exact ⟨l.2, happlies, .inr ⟨hlt, r, hp, hr⟩⟩
  · rintro ⟨t, happlies, ⟨hlength, rfl⟩ | ⟨hlt, r, hp, hr⟩⟩
    · exact ⟨as, (d, u), happlies, .inl ⟨hlength, rfl, rfl⟩⟩
    · exact ⟨as, (d, t), happlies, .inr ⟨hlt, r, hp, hr, rfl, rfl⟩⟩

/-- A loop with an upper bound ends without success at an error only. -/
theorem run_upTo_noSuccess_iff : (upTo p n c).run s = (.ok (.noSuccess r), u) ↔
    r.isFailure = false ∧ ∃ as l, Applies p (c, s) as l ∧ as.length < n ∧
      (p l.1).run l.2 = (.ok (.noSuccess r), u) := by
  rw [run_upTo_iff]
  simp only [Outcome.noSuccess_eq_givenUp_iff]
  constructor
  · rintro ⟨as, l, happlies, ⟨-, heq, -⟩ | ⟨hlt, r, hp, hr, rfl⟩⟩
    · cases heq
    · exact ⟨hr, as, l, happlies, hlt, hp⟩
  · rintro ⟨hr, as, l, happlies, hlt, hp⟩
    exact ⟨as, l, happlies, .inr ⟨hlt, r, hp, hr, rfl⟩⟩

/-- A loop without a bound succeeds where a round fails or consumes nothing. -/
theorem run_openEnded_success_iff : (openEnded p n c).run s = (.ok (.success as d), u) ↔
    (∃ t r, Advances p (c, s) as (d, t) ∧ as.length < n ∧
      (p d).run t = (.ok (.noSuccess r), u) ∧ r.isFailure = true) ∨
    ∃ bs a e t, as = bs ++ [a] ∧ Advances p (c, s) bs (e, t) ∧ bs.length < n ∧
      (p e).run t = (.ok (.success a d), u) ∧ Cursor.position d = Cursor.position e := by
  rw [run_openEnded_iff]
  simp only [Outcome.success_eq_givenUp_iff]
  constructor
  · rintro ⟨bs, l, hadvances, hlt, ⟨a, d, hp, hd, heq⟩ | ⟨r, hp, hr, rfl, rfl⟩⟩
    · cases heq
      exact .inr ⟨bs, a, l.1, l.2, rfl, hadvances, hlt, hp, hd⟩
    · exact .inl ⟨l.2, r, hadvances, hlt, hp, hr⟩
  · rintro (⟨t, r, hadvances, hlt, hp, hr⟩ | ⟨bs, a, e, t, rfl, hadvances, hlt, hp, hd⟩)
    · exact ⟨as, (d, t), hadvances, hlt, .inr ⟨r, hp, hr, rfl, rfl⟩⟩
    · exact ⟨bs, (e, t), hadvances, hlt, .inl ⟨a, d, hp, hd, rfl⟩⟩

/-- A loop without a bound ends without success at an error only. -/
theorem run_openEnded_noSuccess_iff : (openEnded p n c).run s = (.ok (.noSuccess r), u) ↔
    r.isFailure = false ∧ ∃ as l, Advances p (c, s) as l ∧ as.length < n ∧
      (p l.1).run l.2 = (.ok (.noSuccess r), u) := by
  rw [run_openEnded_iff]
  simp only [Outcome.noSuccess_eq_givenUp_iff]
  constructor
  · rintro ⟨as, l, hadvances, hlt, ⟨a, d, -, -, heq⟩ | ⟨r, hp, hr, rfl⟩⟩
    · cases heq
    · exact ⟨hr, as, l, hadvances, hlt, hp⟩
  · rintro ⟨hr, as, l, hadvances, hlt, hp⟩
    exact ⟨as, l, hadvances, hlt, .inr ⟨r, hp, hr, rfl⟩⟩

end Recognizer

end Parsing
