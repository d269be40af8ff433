import Parsing.Proofs.Recognizer.Counts

/-!
# Loops without what they carry along

The loop that all repetitions share carries the values that it has found, and tells how it ended.
What becomes of them does not depend on it: a number of repetitions all of which are asked for is
`times`, one up to a bound is `upTo`, and one without a bound is `openEnded`. These are recursions
on the number of rounds, and `many`, `manyOne` and `repeated` are made of them (`many_eq`,
`manyOne_eq`, `repeated_eq`).
-/

namespace Parsing

namespace Recognizer

universe u

variable {m : Type → Type u} [Monad m] {C T α β γ : Type}

/-! ## Laws -/

section

variable [LawfulMonad m] {p : Recognizer m C α}

/-- A chain behind a branch is a branch with a chain behind each of its ways. -/
theorem chain_branch {next : C → α → Recognizer m C β}
    {otherwise : C → NoSuccess → Recognizer m C β} {f : β → Recognizer m C γ} (c : C) :
    chain (fun c => branch p (next c) (otherwise c) c) f c =
      branch p (fun a => chain (next c a) f) (fun r => chain (otherwise c r) f) c := by
  refine (bind_assoc _ _ _).trans (bind_congr fun o => ?_)
  cases o with
  | success a d => rfl
  | noSuccess r =>
    by_cases hr : r.isFailure = true
    · simp only [hr, if_true]
      rfl
    · simp only [hr]
      refine (pure_bind _ _).trans ?_
      simp only [hr]
      rfl

omit [LawfulMonad m] in
/-- A chain behind a condition is a condition on two chains. -/
theorem chain_ite {P : C → Prop} [DecidablePred P] (q q' : Recognizer m C α)
    (f : α → Recognizer m C β) (c : C) :
    chain (fun c => if P c then q c else q' c) f c =
      if P c then chain q f c else chain q' f c :=
  apply_ite (· >>= _) _ _ _

/-- A chain behind a value goes on with the value. -/
theorem chain_succeed (a : α) (f : α → Recognizer m C β) : chain (succeed a) f = f a := by
  funext c
  exact pure_bind _ _

/-- A chain behind a reason passes it on. -/
theorem chain_report (r : NoSuccess) (f : α → Recognizer m C β) :
    chain (report r) f = report r := by
  funext c
  exact (pure_bind _ _).trans (ite_self _)

omit [LawfulMonad m] in
/-- A chain behind a stop is never reached. -/
theorem chain_halt [Halting m] [Halting.Lawful m] (h : Halt) (f : α → Recognizer m C β) :
    chain (fun _ => halt h) f = fun _ => halt h := by
  funext c
  exact Halting.Lawful.halt_bind h _

/-- A chain behind a mapped recognizer goes on with the images. -/
theorem chain_map (f : α → β) (g : β → Recognizer m C γ) (p : Recognizer m C α) :
    chain (map f p) g = chain p fun a => g (f a) := by
  funext c
  refine (chain_branch c).trans ?_
  simp only [chain_succeed, chain_report]
  rfl

/-- Mapping twice is mapping once. -/
theorem map_map (f : α → β) (g : β → γ) (p : Recognizer m C α) :
    map g (map f p) = map (fun a => g (f a)) p :=
  chain_map f _ p

/-- Values in front, and one more in front of the rest, are all in front. -/
theorem map_append_cons (values : List α) (a : α) (q : Recognizer m C (List α)) :
    map (values ++ ·) (map (List.cons a) q) = map (values ++ [a] ++ ·) q := by
  rw [map_map]
  simp only [List.append_assoc, List.singleton_append]

/-- Mapping by what changes nothing changes nothing. -/
theorem map_eq_self {f : α → α} (h : ∀ a, f a = a) (p : Recognizer m C α) : map f p = p := by
  funext c
  refine (bind_congr fun o => ?_).trans (bind_pure (p c))
  cases o with
  | success a d => exact congrArg (fun a => pure (Outcome.success a d)) (h a)
  | noSuccess r => exact ite_self _

/-- A value in front of a recognizer is mapped into what it gives. -/
theorem zip_succeed_left (f : α → β → γ) (a : α) (q : Recognizer m C β) :
    zip f (succeed a) q = map (f a) q :=
  chain_succeed a _

/-- A value behind a recognizer is mapped into what it gives. -/
theorem zip_succeed_right (f : α → β → γ) (p : Recognizer m C α) (b : β) :
    zip f p (succeed b) = map (f · b) p :=
  congrArg (chain p) (funext fun _ => chain_succeed b _)

end

/-! ## Repetitions by themselves -/

/-- Repeats `n` times. -/
def times (p : Recognizer m C α) : Nat → Recognizer m C (List α)
  | 0 => succeed []
  | n + 1 => zip List.cons p (times p n)

/-- Repeats `n` times, or until the first failure. -/
def upTo (p : Recognizer m C α) : Nat → Recognizer m C (List α)
  | 0 => succeed []
  | n + 1 => branch p (fun a => map (List.cons a) (upTo p n)) fun _ => succeed []

variable [Halting m] [Cursor C T]

/-- Repeats until the first failure or the first repetition that consumed nothing. -/
def openEnded (p : Recognizer m C α) : Nat → Recognizer m C (List α)
  | 0 => fun _ => halt .outOfFuel
  | fuel + 1 => fun c =>
    branch p
      (fun a rest =>
        if Cursor.position rest = Cursor.position c then succeed [a] rest
        else map (List.cons a) (openEnded p fuel) rest)
      (fun _ => succeed []) c

/-! ## The loop -/

section

variable {p : Recognizer m C α} {n k : Nat} (values : List α)

/-- One more value leaves one less to come. -/
theorem length_add_succ (a : α) (n : Nat) :
    values.length + (n + 1) = (values ++ [a]).length + n := by
  rw [List.length_append, List.length_singleton]
  omega

/-- A round of the loop without a bound. -/
theorem appendUpTo_none_succ :
    appendUpTo none p (n + 1) values = fun c =>
      branch p
        (fun a rest =>
          if Cursor.position rest = Cursor.position c then succeed (values ++ [a], none) rest
          else appendUpTo none p n (values ++ [a]) rest)
        (fun failure => succeed (values, some failure)) c := by
  funext c
  simp only [appendUpTo, Option.all_none, if_true, Option.isNone_none, and_true]

/-- The loop with a bound ends when it has as many values. -/
theorem appendUpTo_some_length :
    appendUpTo (some values.length) p n values = succeed (values, none) := by
  have hfull : ¬ (some values.length).all (values.length < ·) = true := by simp
  cases n <;> exact funext fun _ => if_neg hfull

/-- A round of the loop with a bound. -/
theorem appendUpTo_some_succ (h : values.length < k) :
    appendUpTo (some k) p (n + 1) values =
      branch p (fun a => appendUpTo (some k) p n (values ++ [a]))
        fun failure => succeed (values, some failure) := by
  funext c
  simp only [appendUpTo, Option.all_some, h, decide_true, if_true, Option.isNone_some,
    Bool.false_eq_true, and_false, if_false]

variable [Halting.Lawful m]

/-- Without a limit, the values that are there stand in front of those of `openEnded`. -/
theorem map_fst_appendUpTo_none :
    map Prod.fst (appendUpTo none p n values) = map (values ++ ·) (openEnded p n) := by
  induction n generalizing values with
  | zero =>
    -- out of rounds, nothing is made of the values any more
    exact (chain_halt _ _).trans (chain_halt _ _).symm
  | succ n ih =>
    funext c
    rw [appendUpTo_none_succ, openEnded, map, map, chain_branch, chain_branch]
    simp only [chain_succeed, List.append_nil]
    congr 1
    funext a d
    rw [chain_ite, chain_ite]
    split
    · rw [chain_succeed, chain_succeed]
    · exact congrFun ((ih _).trans (map_append_cons _ _ _).symm) d

/-- Up to a limit, the values that are there stand in front of those of `upTo`. -/
theorem map_fst_appendUpTo_some :
    map Prod.fst (appendUpTo (some (values.length + n)) p n values) =
      map (values ++ ·) (upTo p n) := by
  induction n generalizing values with
  | zero =>
    rw [Nat.add_zero, appendUpTo_some_length, map, map, upTo, chain_succeed, chain_succeed,
      List.append_nil]
  | succ n ih =>
    funext c
    rw [appendUpTo_some_succ values (Nat.lt_add_of_pos_right (Nat.succ_pos n)), upTo, map, map,
      chain_branch, chain_branch]
    simp only [chain_succeed, List.append_nil]
    congr 1
    funext a
    rw [length_add_succ values a n]
    exact (ih _).trans (map_append_cons _ _ _).symm

/-- Up to a limit that is to be reached, they stand in front of those of `times`. -/
theorem chain_appendUpTo_some (f : List α → Recognizer m C β) :
    (chain (appendUpTo (some (values.length + n)) p n values) fun
      | (_, some failure) => report failure
      | (values, none) => f values) = chain (times p n) fun as => f (values ++ as) := by
  induction n generalizing values with
  | zero =>
    rw [Nat.add_zero, appendUpTo_some_length, times, chain_succeed, chain_succeed,
      List.append_nil]
  | succ n ih =>
    funext c
    rw [appendUpTo_some_succ values (Nat.lt_add_of_pos_right (Nat.succ_pos n)), times, zip,
      chain_branch]
    refine Eq.trans ?_ (chain_branch c).symm
    simp only [chain_succeed, chain_report, chain_map]
    congr 1
    funext a
    rw [length_add_succ values a n]
    refine (ih _).trans ?_
    simp only [List.append_assoc, List.singleton_append]

/-- A loop of fixed length begins with one round. -/
theorem chain_times_succ (f : List α → Recognizer m C β) :
    chain (times p (n + 1)) f = chain p fun a => chain (times p n) fun as => f (a :: as) := by
  funext c
  refine (chain_branch c).trans ?_
  simp only [chain_map, chain_report]
  rfl

/-- What follows on a number of repetitions is given as many values. -/
theorem chain_times_congr {f g : List α → Recognizer m C β}
    (h : ∀ as, as.length = n → f as = g as) : chain (times p n) f = chain (times p n) g := by
  induction n generalizing f g with
  | zero =>
    rw [times, chain_succeed, chain_succeed]
    exact h [] rfl
  | succ n ih =>
    rw [chain_times_succ, chain_times_succ]
    exact congrArg (chain p) (funext fun a => ih fun as has => h (a :: as) (congrArg (· + 1) has))

end

/-! ## The repetitions -/

section

variable [Halting.Lawful m] {fuel : Nat} {p : Recognizer m C α}

/-- Reading any number of times is the loop without a bound. -/
theorem many_eq : many fuel p = openEnded p fuel :=
  (map_fst_appendUpTo_none []).trans (map_eq_self List.nil_append _)

/-- Reading at least once is one round, and then the loop unless nothing was consumed. -/
theorem manyOne_eq : manyOne fuel p = fun c =>
    chain p (fun a rest =>
      if Cursor.position rest = Cursor.position c then succeed [a] rest
      else map (List.cons a) (openEnded p fuel) rest) c := by
  have hloop (a : α) : map Prod.fst (repeatInto fuel p [a] none) =
      map (List.cons a) (openEnded p fuel) := map_fst_appendUpTo_none [a]
  unfold manyOne
  simp only [hloop]

/-- A repetition reads the least count, and then loops up to the greatest one. -/
theorem repeated_eq {range : CountRange} : repeated fuel range p =
    if range.isEmpty then succeed []
    else zip (· ++ ·) (times p range.least) <|
      match range.greatest? with
      | some k => upTo p (k - range.least)
      | none => openEnded p fuel := by
  unfold repeated
  split
  · rfl
  · rename_i hempty
    have hleast := chain_appendUpTo_some (p := p) (n := range.least) []
      fun values => map Prod.fst (repeatInto fuel p values range.greatest?)
    rw [List.length_nil, Nat.zero_add] at hleast
    refine hleast.trans (chain_times_congr fun as has => ?_)
    cases hgreatest : range.greatest? with
    | none => exact map_fst_appendUpTo_none as
    | some k =>
      have hle := range.least_le_of_greatest? (Bool.of_not_eq_true hempty) hgreatest
      obtain ⟨n, rfl⟩ := Nat.exists_eq_add_of_le hle
      -- the limit counts the values that are there already
      rw [← has]
      change map Prod.fst (appendUpTo (some (as.length + n)) p (as.length + n - as.length) as) =
        map (as ++ ·) (upTo p (as.length + n - as.length))
      rw [Nat.add_sub_cancel_left]
      exact map_fst_appendUpTo_some as

end

end Recognizer

end Parsing
