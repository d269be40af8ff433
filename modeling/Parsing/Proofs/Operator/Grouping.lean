import Mathlib.Data.List.Basic
import Parsing.Operator.Associativity

/-!
# How operators of one level group

`Readings` tell which lists of tokens are read as which values. Given how operands and operators are
read, `Grouped` says how operands with the operators of one level between or beside them are read,
with one way to add an operator for each associativity.

A layer of operators comes to its value in another way: it reads a run of pairs (`Repeated`) and
folds over it. The two agree for each associativity (`grouped_left_iff` and its siblings).
-/

namespace Parsing

/-- Which lists of tokens are read as which values. -/
abbrev Readings (T α : Type) := List T → α → Prop

namespace Readings

variable {T α β γ O : Type}

/-- Single tokens with a meaning. -/
def single (meaning : T → α → Prop) : Readings T α :=
  fun w a => ∃ t, w = [t] ∧ meaning t a

/-- One part after another. -/
def both (f : α → β → γ) (L : Readings T α) (M : Readings T β) : Readings T γ :=
  fun w c => ∃ u a v b, L u a ∧ M v b ∧ w = u ++ v ∧ c = f a b

/-- A part, or nothing. -/
def perhaps (L : Readings T α) : Readings T (Option α) :=
  fun w o => (w = [] ∧ o = none) ∨ ∃ a, L w a ∧ o = some a

/-- Any number of parts, one after another. -/
inductive Repeated (L : Readings T α) : Readings T (List α) where
  | nil : Repeated L [] []
  | cons {u v : List T} {a : α} {as : List α} :
    L u a → Repeated L v as → Repeated L (u ++ v) (a :: as)

variable {L : Readings T α} {u v : List T} {a : α} {as : List α}

/-- One more part may come behind the others. -/
theorem Repeated.concat (h : Repeated L u as) (ha : L v a) : Repeated L (u ++ v) (as ++ [a]) := by
  induction h with
  | nil =>
    have hlast : Repeated L (v ++ []) [a] := .cons ha .nil
    rwa [List.append_nil] at hlast
  | cons hb _ ih =>
    rw [List.append_assoc]
    exact .cons hb ih

/-- If every part begins with a token of some kind, then what comes first of a run of parts and of
what follows is of that kind, provided that it is where nothing precedes. -/
theorem Repeated.head {P : T → Prop} (h : Repeated L u as)
    (hL : ∀ {w a}, L w a → ∃ t w', w = t :: w' ∧ P t) {r : List T} (hr : ∀ t ∈ r.head?, P t) :
    ∀ t ∈ (u ++ r).head?, P t := by
  cases h with
  | nil => exact hr
  | cons ha _ =>
    obtain ⟨t, w', rfl, ht⟩ := hL ha
    intro t' ht'
    cases ht'
    exact ht

/-- What begins with a token is not empty. -/
theorem ne_nil_of_start {P : T → Prop} {w : List T} (h : ∃ t u, w = t :: u ∧ P t) : w ≠ [] := by
  obtain ⟨t, u, rfl, -⟩ := h
  exact List.cons_ne_nil t u

/-- A single token begins with itself. -/
theorem start_of_single {meaning : T → α → Prop} {w : List T} (h : single meaning w a) :
    ∃ t u, w = t :: u ∧ ∃ b, meaning t b := by
  obtain ⟨t, rfl, ht⟩ := h
  exact ⟨t, [], rfl, a, ht⟩

/-- One part after another begins with what the first part begins with. -/
theorem start_of_both {f : α → β → γ} {M : Readings T β} {P : T → Prop} {w : List T} {x : γ}
    (hL : ∀ {u a}, L u a → ∃ t u', u = t :: u' ∧ P t) (h : both f L M w x) :
    ∃ t u, w = t :: u ∧ P t := by
  obtain ⟨u, a, v, -, ha, -, rfl, -⟩ := h
  obtain ⟨t, u', rfl, ht⟩ := hL ha
  exact ⟨t, u' ++ v, rfl, ht⟩

/-! ## Levels of operators -/

section Grouped

variable (E : Readings T O) (infixes : T → (O → O → O) → Prop) (marks : T → (O → O) → Prop)

/-- Operands with operators of one level: `infixes` stand between two operands and `marks` in front
of one or behind one. On the left of an operator that groups from the left there may be others, on
its right only an operand; and so on. -/
inductive Grouped : Associativity → Readings T O where
  | operand {associativity : Associativity} {w : List T} {x : O} : E w x → Grouped associativity w x
  | left {u w : List T} {t : T} {x y : O} {f : O → O → O} :
    Grouped .left u x → infixes t f → E w y → Grouped .left (u ++ t :: w) (f x y)
  | right {u w : List T} {t : T} {x y : O} {f : O → O → O} :
    E u x → infixes t f → Grouped .right w y → Grouped .right (u ++ t :: w) (f x y)
  | none {u w : List T} {t : T} {x y : O} {f : O → O → O} :
    E u x → infixes t f → E w y → Grouped .none (u ++ t :: w) (f x y)
  | before {w : List T} {t : T} {x : O} {f : O → O} :
    marks t f → Grouped .before w x → Grouped .before (t :: w) (f x)
  | after {u : List T} {t : T} {x : O} {f : O → O} :
    Grouped .after u x → marks t f → Grouped .after (u ++ [t]) (f x)

variable {E infixes marks} {w : List T} {x : O}

/-- From the left: an operand, then operators with an operand on their right. -/
theorem grouped_left_iff : Grouped E infixes marks .left w x ↔
    both (fun first rest => rest.foldl (fun left (apply, right) => apply left right) first) E
      (Repeated (both Prod.mk (single infixes) E)) w x := by
  constructor
  · intro h
    generalize hleft : Associativity.left = associativity at h
    induction h with
    | operand hx => exact ⟨_, _, _, _, hx, .nil, (List.append_nil _).symm, rfl⟩
    | left _ ht hy ih =>
      obtain ⟨u, first, v, rest, hfirst, hrest, rfl, rfl⟩ := ih rfl
      refine ⟨u, first, _, _, hfirst, hrest.concat ⟨_, _, _, _, ⟨_, rfl, ht⟩, hy, rfl, rfl⟩, ?_, ?_⟩
      · simp
      · simp
    | right | none | before | after => cases hleft
  · rintro ⟨u, first, v, rest, hfirst, hrest, rfl, rfl⟩
    have hgrouped : Grouped E infixes marks .left u first := .operand hfirst
    clear hfirst
    -- what was folded so far is the left operand of the next operator
    induction hrest generalizing u first with
    | nil => rwa [List.append_nil]
    | cons ha _ ih =>
      obtain ⟨_, f, w, y, ⟨t, rfl, ht⟩, hy, rfl, rfl⟩ := ha
      have hnext := ih (u ++ t :: w) (f first y) (hgrouped.left ht hy)
      simpa using hnext

/-- From the right: operators with an operand on their left, then an operand. -/
theorem grouped_right_iff : Grouped E infixes marks .right w x ↔
    both (fun rest last => rest.foldr (fun (left, apply) right => apply left right) last)
      (Repeated (both Prod.mk E (single infixes))) E w x := by
  constructor
  · intro h
    generalize hright : Associativity.right = associativity at h
    induction h with
    | operand hx => exact ⟨_, _, _, _, .nil, hx, rfl, rfl⟩
    | right hx ht _ ih =>
      obtain ⟨u, rest, v, last, hrest, hlast, rfl, rfl⟩ := ih rfl
      refine ⟨_, _, v, last, .cons ⟨_, _, _, _, hx, ⟨_, rfl, ht⟩, rfl, rfl⟩ hrest, hlast, ?_, rfl⟩
      simp
    | left | none | before | after => cases hright
  · rintro ⟨u, rest, v, last, hrest, hlast, rfl, rfl⟩
    induction hrest with
    | nil => exact .operand hlast
    | cons ha _ ih =>
      obtain ⟨u, x, _, f, hx, ⟨t, rfl, ht⟩, rfl, rfl⟩ := ha
      have hall : Grouped E infixes marks .right _ _ := .right hx ht ih
      simpa using hall

/-- Not in a row: an operand, and perhaps an operator with an operand on its right. -/
theorem grouped_none_iff : Grouped E infixes marks .none w x ↔
    both (fun left rest =>
      match rest with
      | some (apply, right) => apply left right
      | none => left) E (perhaps (both Prod.mk (single infixes) E)) w x := by
  constructor
  · intro h
    cases h with
    | operand hx =>
      exact ⟨w, x, [], Option.none, hx, Or.inl ⟨rfl, rfl⟩, (List.append_nil w).symm, rfl⟩
    | none hx ht hy =>
      exact ⟨_, _, _, _, hx, Or.inr ⟨_, ⟨_, _, _, _, ⟨_, rfl, ht⟩, hy, rfl, rfl⟩, rfl⟩, rfl, rfl⟩
  · rintro ⟨u, x, v, o, hx, ⟨rfl, rfl⟩ | ⟨_, hpair, rfl⟩, rfl, rfl⟩
    · rw [List.append_nil]
      exact .operand hx
    · obtain ⟨_, f, w, y, ⟨t, rfl, ht⟩, hy, rfl, rfl⟩ := hpair
      exact .none hx ht hy

/-- In front: operators, then an operand. -/
theorem grouped_before_iff : Grouped E infixes marks .before w x ↔
    both (fun applies value => applies.foldr (fun apply value => apply value) value)
      (Repeated (single marks)) E w x := by
  constructor
  · intro h
    generalize hbefore : Associativity.before = associativity at h
    induction h with
    | operand hx => exact ⟨_, _, _, _, .nil, hx, rfl, rfl⟩
    | before ht _ ih =>
      obtain ⟨u, applies, v, value, happlies, hvalue, rfl, rfl⟩ := ih rfl
      exact ⟨_, _, v, value, .cons ⟨_, rfl, ht⟩ happlies, hvalue, rfl, rfl⟩
    | left | right | none | after => cases hbefore
  · rintro ⟨u, applies, v, value, happlies, hvalue, rfl, rfl⟩
    induction happlies with
    | nil => exact .operand hvalue
    | cons ha _ ih =>
      obtain ⟨t, rfl, ht⟩ := ha
      exact .before ht ih

/-- Behind: an operand, then operators. -/
theorem grouped_after_iff : Grouped E infixes marks .after w x ↔
    both (fun value applies => applies.foldl (fun value apply => apply value) value) E
      (Repeated (single marks)) w x := by
  constructor
  · intro h
    generalize hafter : Associativity.after = associativity at h
    induction h with
    | operand hx => exact ⟨_, _, _, _, hx, .nil, (List.append_nil _).symm, rfl⟩
    | after _ ht ih =>
      obtain ⟨u, value, v, applies, hvalue, happlies, rfl, rfl⟩ := ih rfl
      refine ⟨u, value, _, _, hvalue, happlies.concat ⟨_, rfl, ht⟩, ?_, ?_⟩
      · simp
      · simp
    | left | right | none | before => cases hafter
  · rintro ⟨u, value, v, applies, hvalue, happlies, rfl, rfl⟩
    have hgrouped : Grouped E infixes marks .after u value := .operand hvalue
    clear hvalue
    induction happlies generalizing u value with
    | nil => rwa [List.append_nil]
    | cons ha _ ih =>
      obtain ⟨t, rfl, ht⟩ := ha
      have hnext := ih (u ++ [t]) _ (hgrouped.after ht)
      simpa using hnext

end Grouped

end Readings

end Parsing
