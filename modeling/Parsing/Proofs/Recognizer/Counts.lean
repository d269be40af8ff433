import Parsing.Recognizer.Repetition

/-!
# Counts in a range

A number lies in a range if neither bound rules it out (`CountRange.Contains`). The least and the
greatest number wanted say the same, as long as the number behind an excluded lower bound is still a
count (`CountRange.contains_iff`).
-/

namespace Parsing

namespace Bound

/-- Whether a number is not below a bound. -/
def AtMost : Bound → Nat → Prop
  | .included k, n => k ≤ n
  | .excluded k, n => k < n
  | .unbounded, _ => True

/-- Whether a number is not above a bound. -/
def AtLeast : Bound → Nat → Prop
  | .included k, n => n ≤ k
  | .excluded k, n => n < k
  | .unbounded, _ => True

instance (bound : Bound) (n : Nat) : Decidable (bound.AtMost n) :=
  match bound with
  | .included k => inferInstanceAs (Decidable (k ≤ n))
  | .excluded k => inferInstanceAs (Decidable (k < n))
  | .unbounded => .isTrue trivial

instance (bound : Bound) (n : Nat) : Decidable (bound.AtLeast n) :=
  match bound with
  | .included k => inferInstanceAs (Decidable (n ≤ k))
  | .excluded k => inferInstanceAs (Decidable (n < k))
  | .unbounded => .isTrue trivial

/-- A bound that is not below a count is not below a lesser one. -/
theorem AtLeast.anti {bound : Bound} {m n : Nat} (h : bound.AtLeast n) (hle : m ≤ n) :
    bound.AtLeast m := by
  cases bound with
  | included k => exact Nat.le_trans hle h
  | excluded k => exact Nat.lt_of_le_of_lt hle h
  | unbounded => trivial

end Bound

namespace CountRange

/-- Whether a number lies in a range. -/
structure Contains (range : CountRange) (n : Nat) : Prop where
  lower : range.lower.AtMost n
  upper : range.upper.AtLeast n

variable {range : CountRange} {n k : Nat}

/-- A range has the counts between its two bounds. -/
theorem contains_def : range.Contains n ↔ range.lower.AtMost n ∧ range.upper.AtLeast n :=
  ⟨fun h => ⟨h.lower, h.upper⟩, fun h => ⟨h.1, h.2⟩⟩

instance : Decidable (range.Contains n) :=
  decidable_of_iff _ contains_def.symm

/-- A range has counts if its least one is not beyond its upper bound. -/
theorem isEmpty_eq_false_iff : range.isEmpty = false ↔ range.upper.AtLeast range.least := by
  unfold isEmpty
  cases range.upper with
  | included k => simp [Bound.AtLeast]
  | excluded k => simp [Bound.AtLeast]
  | unbounded => simp [Bound.AtLeast]

/-- What is not beyond the upper bound is not beyond the greatest count, if there is one. -/
theorem atLeast_upper_iff (h : range.isEmpty = false) :
    range.upper.AtLeast n ↔ ∀ k, range.greatest? = some k → n ≤ k := by
  rw [isEmpty_eq_false_iff] at h
  unfold greatest?
  cases hupper : range.upper with
  | included k => simp [Bound.AtLeast]
  | excluded k =>
    cases k with
    | zero =>
      rw [hupper] at h
      exact absurd h (Nat.not_lt_zero _)
    | succ k => exact Nat.lt_succ_iff.trans (by simp)
  | unbounded => simp [Bound.AtLeast]

/-- In a range with counts the least one is not beyond the greatest one. -/
theorem least_le_of_greatest? (h : range.isEmpty = false) (hk : range.greatest? = some k) :
    range.least ≤ k :=
  (atLeast_upper_iff h).mp (isEmpty_eq_false_iff.mp h) k hk

/-- A range with counts and without a greatest one has no upper bound. -/
theorem upper_eq_unbounded (h : range.isEmpty = false) (hgreatest : range.greatest? = none) :
    range.upper = .unbounded := by
  rw [isEmpty_eq_false_iff] at h
  unfold greatest? at hgreatest
  split at hgreatest
  · cases hgreatest
  · rename_i hupper
    rw [hupper] at h
    exact absurd h (Nat.not_lt_zero _)
  · cases hgreatest
  · assumption

/-- Behind an excluded bound that is not the largest count, the least number wanted is the next. -/
theorem atMost_lower_iff (h : ∀ k, range.lower = .excluded k → k < largestCount) :
    range.lower.AtMost n ↔ range.least ≤ n := by
  unfold least
  cases hlower : range.lower with
  | included k => rfl
  | excluded k =>
    simp only [Bound.AtMost, Nat.min_eq_left (Nat.succ_le_of_lt (h k hlower)), Nat.succ_le_iff]
  | unbounded => simp only [Bound.AtMost, Nat.zero_le]

/-- A range has a count if and only if it is not empty. -/
theorem exists_contains_iff (h : ∀ k, range.lower = .excluded k → k < largestCount) :
    (∃ n, range.Contains n) ↔ range.isEmpty = false := by
  rw [isEmpty_eq_false_iff]
  constructor
  · rintro ⟨n, hlower, hupper⟩
    exact hupper.anti ((atMost_lower_iff h).mp hlower)
  · exact fun hupper => ⟨range.least, (atMost_lower_iff h).mpr (Nat.le_refl _), hupper⟩

/-- The counts of a range go from the least to the greatest one. -/
theorem contains_iff (h : ∀ k, range.lower = .excluded k → k < largestCount)
    (hempty : range.isEmpty = false) :
    range.Contains n ↔ range.least ≤ n ∧ ∀ k, range.greatest? = some k → n ≤ k := by
  rw [contains_def, atMost_lower_iff h, atLeast_upper_iff hempty]

/-- What is below all counts of a range is below the least one. -/
theorem forall_lt_iff (h : ∀ k, range.lower = .excluded k → k < largestCount)
    (hempty : range.isEmpty = false) : (∀ k, range.Contains k → n < k) ↔ n < range.least := by
  constructor
  · intro hlt
    exact hlt _ ⟨(atMost_lower_iff h).mpr (Nat.le_refl _), isEmpty_eq_false_iff.mp hempty⟩
  · exact fun hlt k hk => Nat.lt_of_lt_of_le hlt ((atMost_lower_iff h).mp hk.lower)

end CountRange

end Parsing
