import Parsing.Proofs.Recognizer.Loops
import Parsing.Proofs.Recognizer.Rounds

/-!
# Repetitions

What `many`, `manyOne` and `repeated` come to, in terms of the rounds of their loops. `many` goes
on behind every round that consumes something, so that over a finite input there are no more of
these than tokens (`run_many`). `repeated` honours its range: behind the least number of rounds it
goes on up to the greatest one (`run_repeated`). The three agree with each other
(`repetitions_agree`).
-/

namespace Parsing

open Cursor

namespace Recognizer

variable {σ C T α β γ : Type} [Cursor C T] {P : σ → Prop} {base c d : C} {s t u : σ}
  {k l : C × σ} {as : List α} {r : NoSuccess} {p : Recognizer (Effect σ) C α} {n : ℕ}

/-! ## Unbounded repetition -/

/-- Rounds that consume something leave fewer tokens, each of them. -/
theorem Returns.length_add_remaining_le [Cursor.Lawful C] (h : p.Returns P base)
    (hk : After base k.1) (hs : P k.2) (hadvances : Advances p k as l) :
    as.length + Lawful.remaining l.1 ≤ Lawful.remaining k.1 := by
  induction hadvances with
  | nil k => exact Nat.le_of_eq (Nat.zero_add _)
  | @cons c d s t a as l hp hd _ ih =>
    obtain ⟨ht, hafter⟩ := (h c hk).of_ok hs hp
    have hrest : as.length + Lawful.remaining l.1 ≤ Lawful.remaining d := ih (hk.trans hafter) ht
    have hlt : Lawful.remaining d < Lawful.remaining c := hafter.remaining_lt hd
    change as.length + 1 + Lawful.remaining l.1 ≤ Lawful.remaining c
    omega

/-- `many` over what always returns, at a finite input:
* it comes to an outcome, in no more rounds than there are tokens, and one;
* it goes on behind no more rounds than there are tokens;
* it does not succeed just if a round ends with an error, with that one;
* it succeeds with the values of all rounds, either in front of a round that fails or behind the
  first one that consumes nothing. -/
theorem run_many [Cursor.Lawful C] (h : p.Returns P c) (hs : P s)
    (hn : Lawful.remaining c < n) :
    (∃ o u, (many n p c).run s = (.ok o, u)) ∧
    (∀ as l, Advances p (c, s) as l → as.length ≤ Lawful.remaining c) ∧
    (∀ r u, (many n p c).run s = (.ok (.noSuccess r), u) ↔
      r.isError = true ∧ ∃ as l, Advances p (c, s) as l ∧
        (p l.1).run l.2 = (.ok (.noSuccess r), u)) ∧
    ∀ as d u, (many n p c).run s = (.ok (.success as d), u) ↔
      (∃ t r, Advances p (c, s) as (d, t) ∧ (p d).run t = (.ok (.noSuccess r), u) ∧
        r.isFailure = true) ∨
      ∃ bs a e t, as = bs ++ [a] ∧ Advances p (c, s) bs (e, t) ∧
        (p e).run t = (.ok (.success a d), u) ∧ Cursor.position d = Cursor.position e := by
  have hlength {as : List α} {l : C × σ} (hadvances : Advances p (c, s) as l) :
      as.length ≤ Lawful.remaining c :=
    Nat.le_trans (Nat.le_add_right _ _) (h.length_add_remaining_le (.refl c) hs hadvances)
  -- so the loop never reaches its bound
  have hlt {as : List α} {l : C × σ} (hadvances : Advances p (c, s) as l) : as.length < n :=
    Nat.lt_of_le_of_lt (hlength hadvances) hn
  refine ⟨?_, fun as l => hlength, fun r u => ?_, fun as d u => ?_⟩
  · obtain ⟨o, u, hrun, -⟩ := (h.many hn).exists_run hs
    exact ⟨o, u, hrun⟩
  · rw [many_eq, run_openEnded_noSuccess_iff, NoSuccess.isError_eq_not_isFailure,
      Bool.not_eq_true']
    refine and_congr_right fun _ => exists_congr fun as => exists_congr fun l => ?_
    exact and_congr_right fun hadvances => and_iff_right (hlt hadvances)
  · rw [many_eq, run_openEnded_success_iff]
    refine or_congr (exists_congr fun t => exists_congr fun r => ?_)
      (exists_congr fun bs => exists_congr fun a => exists_congr fun e => exists_congr fun t => ?_)
    · exact and_congr_right fun hadvances => and_iff_right (hlt hadvances)
    · exact and_congr_right fun _ => and_congr_right fun hadvances =>
        and_iff_right (hlt hadvances)

/-- Whatever may be missing can be read at any place. -/
theorem Returns.optional (h : p.Returns P base) : (optional p).Returns P base :=
  fun c hc => (h.map some c hc).branch (fun a _ hd => .succeed a hd) fun _ =>
    .succeed none (.refl c)

open Letters in
/-- Behind the first letter a round consumes nothing. -/
theorem run_many_optional_letter :
    (many 5 (optional letter) start).run () =
      (.ok (.success [some 'a', none] (Cursor.next start)), ()) ∧
    ∀ as l, Advances (optional letter) (start, ()) as l → as.length ≤ 4 := by
  obtain ⟨-, hlength, -, hsuccess⟩ := run_many (returns_satisfy "a letter" Char.isAlpha).optional
    (s := ()) trivial (n := 5) (by decide)
  refine ⟨(hsuccess _ _ _).mpr (.inr ?_), hlength⟩
  exact ⟨[some 'a'], none, Cursor.next start, (), rfl, .cons rfl (by decide) (.nil _), rfl, rfl⟩

/-! ## Repetition in a range -/

section

variable {m : ℕ} {q : Recognizer (Effect σ) C (List α)}

/-- Rounds, and what follows on them. -/
theorem run_times_append_success_iff :
    (zip (· ++ ·) (times p m) q c).run s = (.ok (.success as d), u) ↔
      ∃ bs cs l, as = bs ++ cs ∧ bs.length = m ∧ Applies p (c, s) bs l ∧
        (q l.1).run l.2 = (.ok (.success cs d), u) := by
  rw [run_zip_iff]
  constructor
  · rintro (⟨bs, e, t, o, htimes, hq, heq⟩ | ⟨r, -, heq⟩)
    · obtain ⟨happlies, hlength⟩ := run_times_success_iff.mp htimes
      cases o with
      | success cs e' =>
        cases heq
        exact ⟨bs, cs, (e, t), rfl, hlength, happlies, hq⟩
      | noSuccess r => cases heq
    · cases heq
  · rintro ⟨bs, cs, l, rfl, hlength, happlies, hq⟩
    exact .inl ⟨bs, l.1, l.2, _, run_times_success_iff.mpr ⟨happlies, hlength⟩, hq, rfl⟩

/-- Rounds and what follows them end without success where one of them does. -/
theorem run_times_append_noSuccess_iff :
    (zip (· ++ ·) (times p m) q c).run s = (.ok (.noSuccess r), u) ↔
      (∃ as l, as.length = m ∧ Applies p (c, s) as l ∧
        (q l.1).run l.2 = (.ok (.noSuccess r), u)) ∨
      ∃ as l, Applies p (c, s) as l ∧ as.length < m ∧
        (p l.1).run l.2 = (.ok (.noSuccess r), u) := by
  rw [run_zip_iff]
  refine or_congr ⟨?_, ?_⟩ ⟨?_, fun h => ⟨r, run_times_noSuccess_iff.mpr h, rfl⟩⟩
  · rintro ⟨as, e, t, o, htimes, hq, heq⟩
    obtain ⟨happlies, hlength⟩ := run_times_success_iff.mp htimes
    cases o with
    | success bs d => cases heq
    | noSuccess r =>
      cases heq
      exact ⟨as, (e, t), hlength, happlies, hq⟩
  · rintro ⟨as, l, hlength, happlies, hq⟩
    exact ⟨as, l.1, l.2, _, run_times_success_iff.mpr ⟨happlies, hlength⟩, hq, rfl⟩
  · rintro ⟨r, htimes, heq⟩
    cases heq
    exact run_times_noSuccess_iff.mp htimes

/-- Rounds all of which are to succeed are the ones to fail, if those that follow do not. -/
theorem run_times_append_failure_iff (hr : r.isFailure = true)
    (hq : ∀ (e : C) (v w : σ) (r : NoSuccess), (q e).run v = (.ok (.noSuccess r), w) →
      r.isFailure = false) :
    (zip (· ++ ·) (times p m) q c).run s = (.ok (.noSuccess r), u) ↔
      ∃ as l, Applies p (c, s) as l ∧ as.length < m ∧
        (p l.1).run l.2 = (.ok (.noSuccess r), u) := by
  rw [run_times_append_noSuccess_iff, or_iff_right]
  rintro ⟨as, l, -, -, hrun⟩
  exact Bool.false_ne_true ((hq _ _ _ _ hrun).symm.trans hr)

end

section

variable {range : CountRange} {m : ℕ}

/-- A repetition of no count reads nothing. -/
theorem repeated_of_isEmpty (h : range.isEmpty = true) : repeated n range p = succeed [] :=
  if_pos h

/-- A repetition with a greatest count reads the least count, and then up to the greatest one. -/
theorem repeated_of_greatest? (h : range.isEmpty = false) (hm : range.greatest? = some m) :
    repeated n range p = zip (· ++ ·) (times p range.least) (upTo p (m - range.least)) := by
  rw [repeated_eq, h, hm]
  rfl

/-- A repetition without a greatest count reads the least count, and then as much as there is. -/
theorem repeated_of_greatest?_eq_none (h : range.isEmpty = false)
    (hgreatest : range.greatest? = none) :
    repeated n range p = zip (· ++ ·) (times p range.least) (openEnded p n) := by
  rw [repeated_eq, h, hgreatest]
  rfl

/-- A repetition fails only where one of the elements that it must read does. -/
theorem run_repeated_failure_iff (h : range.isEmpty = false) (hr : r.isFailure = true) :
    (repeated n range p c).run s = (.ok (.noSuccess r), u) ↔
      ∃ as l, Applies p (c, s) as l ∧ as.length < range.least ∧
        (p l.1).run l.2 = (.ok (.noSuccess r), u) := by
  cases hgreatest : range.greatest? with
  | some m =>
    rw [repeated_of_greatest? h hgreatest]
    exact run_times_append_failure_iff hr fun _ _ _ _ hrun => (run_upTo_noSuccess_iff.mp hrun).1
  | none =>
    rw [repeated_of_greatest?_eq_none h hgreatest]
    exact run_times_append_failure_iff hr fun _ _ _ _ hrun =>
      (run_openEnded_noSuccess_iff.mp hrun).1

/-- Up to a greatest number, all rounds are made or the next one fails. -/
theorem applies_of_run_repeated_greatest? (h : range.isEmpty = false)
    (hm : range.greatest? = some m)
    (hrun : (repeated n range p c).run s = (.ok (.success as d), u)) :
    range.least ≤ as.length ∧ as.length ≤ m ∧ ∃ t, Applies p (c, s) as (d, t) ∧
      (as.length = m ∧ u = t ∨
        ∃ r, (p d).run t = (.ok (.noSuccess r), u) ∧ r.isFailure = true) := by
  rw [repeated_of_greatest? h hm] at hrun
  obtain ⟨bs, cs, l, rfl, hbs, happlies, hrun⟩ := run_times_append_success_iff.mp hrun
  obtain ⟨t, happlies', hend⟩ := run_upTo_success_iff.mp hrun
  have hle := range.least_le_of_greatest? h hm
  rw [List.length_append, hbs]
  refine ⟨Nat.le_add_right _ _, ?_, t, happlies.append happlies', ?_⟩
  · rcases hend with ⟨hcs, -⟩ | ⟨hcs, -⟩
    · omega
    · omega
  · refine hend.imp (fun ⟨hcs, hu⟩ => ⟨?_, hu⟩) fun ⟨_, hp⟩ => hp
    omega

/-- Without a greatest number, the next round fails or the last one consumed nothing. -/
theorem applies_of_run_repeated_openEnded (h : range.isEmpty = false)
    (hgreatest : range.greatest? = none)
    (hrun : (repeated n range p c).run s = (.ok (.success as d), u)) :
    range.least ≤ as.length ∧ ∃ t, Applies p (c, s) as (d, t) ∧
      ((∃ r, (p d).run t = (.ok (.noSuccess r), u) ∧ r.isFailure = true) ∨
        u = t ∧ ∃ bs a e v, as = bs ++ [a] ∧ range.least ≤ bs.length ∧
          Applies p (c, s) bs (e, v) ∧ (p e).run v = (.ok (.success a d), t) ∧
          Cursor.position d = Cursor.position e) := by
  rw [repeated_of_greatest?_eq_none h hgreatest] at hrun
  obtain ⟨bs, cs, l, rfl, hbs, happlies, hrun⟩ := run_times_append_success_iff.mp hrun
  rw [List.length_append, ← hbs]
  refine ⟨Nat.le_add_right _ _, ?_⟩
  rcases run_openEnded_success_iff.mp hrun with
    ⟨t, r, hadvances, -, hp, hr⟩ | ⟨cs, a, e, v, rfl, hadvances, -, hp, hd⟩
  · exact ⟨t, happlies.append (hadvances.imp fun _ _ _ => trivial), .inl ⟨r, hp, hr⟩⟩
  · have happlies' := happlies.append (hadvances.imp fun _ _ _ => trivial)
    refine ⟨u, ?_, .inr ⟨rfl, bs ++ cs, a, e, v, (List.append_assoc bs cs [a]).symm, ?_,
      happlies', hp, hd⟩⟩
    · rw [← List.append_assoc]
      exact happlies'.append (.cons hp trivial (.nil _))
    · rw [List.length_append]
      exact Nat.le_add_right _ _

end

/-- `repeated` honours its range, of which the lower bound is a count with another one behind it.
If no number lies in the range, the element is not looked at. Otherwise
* a success lists the values of rounds. Their number lies in the range, and is either the greatest
  one, or the next round fails, or there is no greatest one and the last round, behind the least
  number of them, consumed nothing;
* it fails just if one of the least number of rounds fails, with that failure. -/
theorem run_repeated {range : CountRange}
    (hrange : ∀ k, range.lower = .excluded k → k < CountRange.largestCount) :
    ((∀ k, ¬ range.Contains k) → repeated n range p = succeed []) ∧
    ((∃ k, range.Contains k) →
      (∀ as d u, (repeated n range p c).run s = (.ok (.success as d), u) →
        range.Contains as.length ∧ ∃ t, Applies p (c, s) as (d, t) ∧
          ((∀ k, range.Contains k → k ≤ as.length) ∧ u = t ∨
          (∃ r, (p d).run t = (.ok (.noSuccess r), u) ∧ r.isFailure = true) ∨
          range.upper = .unbounded ∧ u = t ∧ ∃ bs a e v, as = bs ++ [a] ∧
            range.Contains bs.length ∧ Applies p (c, s) bs (e, v) ∧
            (p e).run v = (.ok (.success a d), t) ∧ Cursor.position d = Cursor.position e)) ∧
      ∀ r u, r.isFailure = true → ((repeated n range p c).run s = (.ok (.noSuccess r), u) ↔
        ∃ as l, Applies p (c, s) as l ∧ (∀ k, range.Contains k → as.length < k) ∧
          (p l.1).run l.2 = (.ok (.noSuccess r), u))) := by
  refine ⟨fun hnone => ?_, fun hsome => ?_⟩
  · -- without counts the repetition is not entered
    refine repeated_of_isEmpty (Bool.of_not_eq_false fun hempty => ?_)
    obtain ⟨k, hk⟩ := (CountRange.exists_contains_iff hrange).mpr hempty
    exact hnone k hk
  have hempty := (CountRange.exists_contains_iff hrange).mp hsome
  have hcontains {k : ℕ} := CountRange.contains_iff (n := k) hrange hempty
  refine ⟨fun as d u hrun => ?_, fun r u hr => ?_⟩
  · cases hgreatest : range.greatest? with
    | some m =>
      obtain ⟨hleast, hle, t, happlies, hend⟩ :=
        applies_of_run_repeated_greatest? hempty hgreatest hrun
      simp only [hgreatest, Option.some.injEq, forall_eq'] at hcontains
      refine ⟨hcontains.mpr ⟨hleast, hle⟩, t, happlies, ?_⟩
      rcases hend with ⟨hlength, hu⟩ | hend
      · exact .inl ⟨fun k hk => hlength ▸ (hcontains.mp hk).2, hu⟩
      · exact .inr (.inl hend)
    | none =>
      obtain ⟨hleast, t, happlies, hend⟩ :=
        applies_of_run_repeated_openEnded hempty hgreatest hrun
      simp only [hgreatest, reduceCtorEq, false_imp_iff, implies_true, and_true] at hcontains
      refine ⟨hcontains.mpr hleast, t, happlies, .inr ?_⟩
      refine hend.imp_right fun ⟨hu, bs, a, e, v, has, hbs, hround⟩ => ?_
      exact ⟨CountRange.upper_eq_unbounded hempty hgreatest, hu, bs, a, e, v, has,
        hcontains.mpr hbs, hround⟩
  · simp only [CountRange.forall_lt_iff hrange hempty]
    exact run_repeated_failure_iff hempty hr

open Letters in
/-- One or two letters, of which the second one is not there. -/
theorem run_repeated_letters :
    (repeated 1 ⟨.excluded 0, .excluded 3⟩ letter start).run () =
      (.ok (.success ['a'] (Cursor.next start)), ()) ∧
    CountRange.Contains ⟨.excluded 0, .excluded 3⟩ (['a'] : List Char).length ∧
    ∃ r, (letter (Cursor.next start)).run () = (.ok (.noSuccess r), ()) ∧ r.isFailure = true := by
  have hrange : ∀ k, Bound.excluded 0 = .excluded k → k < CountRange.largestCount := by
    rintro _ ⟨⟩
    decide
  have hrun : (repeated 1 ⟨.excluded 0, .excluded 3⟩ letter start).run () =
      (.ok (.success ['a'] (Cursor.next start)), ()) := rfl
  obtain ⟨hcontains, -⟩ := ((run_repeated hrange).2 ⟨1, by decide⟩).1 _ _ _ hrun
  exact ⟨hrun, hcontains, _, rfl, rfl⟩

/-! ## Agreement -/

/-- The first round of `manyOne` is none of its loop. -/
theorem run_manyOne_eq_run_many
    (h : ∀ r t, (p c).run s = (.ok (.noSuccess r), t) → r.isFailure = false) :
    (manyOne n p c).run s = (many (n + 1) p c).run s := by
  rw [manyOne_eq, many_eq]
  exact run_branch_congr h

/-- A repetition that succeeds has the values of successful rounds, up to where it ends. -/
theorem applies_of_run_many (h : (many n p c).run s = (.ok (.success as d), u)) :
    ∃ t, Applies p (c, s) as (d, t) := by
  rw [many_eq] at h
  rcases run_openEnded_success_iff.mp h with
    ⟨t, r, hadvances, -, -, -⟩ | ⟨bs, a, e, t, rfl, hadvances, -, hp, -⟩
  · exact ⟨t, hadvances.imp fun _ _ _ => trivial⟩
  · exact ⟨u, (hadvances.imp fun _ _ _ => trivial).append (.cons hp trivial (.nil _))⟩

/-- What is read one time or more was read by one run of the element after another. -/
theorem applies_of_run_manyOne (h : (manyOne n p c).run s = (.ok (.success as d), u)) :
    ∃ t, Applies p (c, s) as (d, t) := by
  have hfirst : ∀ r t, (p c).run s = (.ok (.noSuccess r), t) → r.isFailure = false := by
    intro r t hp
    rcases run_chain_iff.mp h with ⟨a, e, t', hsuccess, -⟩ | ⟨r', -, heq⟩
    · rw [hp] at hsuccess
      cases hsuccess
    · cases heq
  rw [run_manyOne_eq_run_many hfirst] at h
  exact applies_of_run_many h

/-- Repeating a fixed number of times is the loop of that length. -/
theorem repeated_exactly (n a : ℕ) (p : Recognizer (Effect σ) C α) :
    repeated n (.exactly a) p = times p a := by
  have hempty : (CountRange.exactly a).isEmpty = false := decide_eq_false (Nat.lt_irrefl a)
  rw [repeated_of_greatest? hempty rfl]
  change zip (· ++ ·) (times p a) (upTo p (a - a)) = times p a
  rw [Nat.sub_self]
  exact (zip_succeed_right _ _ _).trans (map_eq_self List.append_nil _)

/-- Repeating up to a number of times is the loop with that bound. -/
theorem repeated_atMost (n b : ℕ) (p : Recognizer (Effect σ) C α) :
    repeated n ⟨.included 0, .included b⟩ p = upTo p b := by
  have hempty : CountRange.isEmpty ⟨.included 0, .included b⟩ = false :=
    decide_eq_false (Nat.not_lt_zero b)
  rw [repeated_of_greatest? hempty rfl]
  exact (zip_succeed_left _ _ _).trans (map_eq_self List.nil_append _)

/-- Repeating any number of times is the loop without a bound. -/
theorem repeated_any (n : ℕ) (p : Recognizer (Effect σ) C α) :
    repeated n ⟨.included 0, .unbounded⟩ p = many n p := by
  rw [repeated_of_greatest?_eq_none rfl rfl, many_eq]
  exact (zip_succeed_left _ _ _).trans (map_eq_self List.nil_append _)

/-- The repetitions agree with each other, whether or not a round consumes anything:
* `manyOne` passes on the failure of the first round;
* otherwise it comes to what `many` comes to;
* from no round on, `repeated` is `many`;
* between two bounds, `repeated` is the least number of rounds and then at most as many as are left;
* without an upper bound, it is the least number of rounds and then `many`. -/
theorem repetitions_agree {a b : ℕ} (hab : a ≤ b) (p : Recognizer (Effect σ) C α) (c : C) (s : σ) :
    (∀ r t, (p c).run s = (.ok (.noSuccess r), t) → r.isFailure = true →
      ∀ n, (manyOne n p c).run s = (.ok (.noSuccess r), t)) ∧
    ((∀ r t, (p c).run s = (.ok (.noSuccess r), t) → r.isFailure = false) →
      ∀ o u, (∃ n, (manyOne n p c).run s = (.ok o, u)) ↔ ∃ n, (many n p c).run s = (.ok o, u)) ∧
    ∀ n, repeated n ⟨.included 0, .unbounded⟩ p = many n p ∧
      repeated n ⟨.included a, .included b⟩ p =
        zip (· ++ ·) (repeated n (.exactly a) p)
          (repeated n ⟨.included 0, .included (b - a)⟩ p) ∧
      repeated n ⟨.included a, .unbounded⟩ p =
        zip (· ++ ·) (repeated n (.exactly a) p) (many n p) := by
  refine ⟨fun r t hp hr n => run_branch_failure hr hp, fun h o u => ⟨?_, ?_⟩,
    fun n => ⟨repeated_any n p, ?_, ?_⟩⟩
  · rintro ⟨n, hrun⟩
    exact ⟨n + 1, (run_manyOne_eq_run_many h).symm.trans hrun⟩
  · rintro ⟨_ | n, hrun⟩
    · cases hrun
    · exact ⟨n, (run_manyOne_eq_run_many h).trans hrun⟩
  · rw [repeated_exactly, repeated_atMost]
    exact repeated_of_greatest? (decide_eq_false (Nat.not_lt_of_le hab)) rfl
  · rw [repeated_exactly, many_eq]
    exact repeated_of_greatest?_eq_none rfl rfl

open Letters in
/-- A letter that may be missing, behind which there is none. -/
theorem repetitions_agree_letters :
    (∃ n, (manyOne n (optional letter) start).run () =
      (.ok (.success [some 'a', none] (Cursor.next start)), ())) ∧
    repeated 1 ⟨.included 1, .included 3⟩ (optional letter) =
      zip (· ++ ·) (repeated 1 (.exactly 1) (optional letter))
        (repeated 1 ⟨.included 0, .included 2⟩ (optional letter)) := by
  obtain ⟨-, hmany, hrepeated⟩ :=
    repetitions_agree (a := 1) (b := 3) (by decide) (optional letter) start ()
  refine ⟨(hmany ?_ _ _).mpr ⟨2, rfl⟩, (hrepeated 1).2.1⟩
  intro r t hrun
  cases hrun

end Recognizer

end Parsing
