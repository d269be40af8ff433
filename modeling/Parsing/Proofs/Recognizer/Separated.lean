import Mathlib.Data.List.Basic
import Mathlib.Logic.Relation
import Parsing.Proofs.Recognizer.Loops
import Parsing.Proofs.Recognizer.Rounds

/-!
# Elements with separators as a repetition

The loop of `joined` knows nothing of that of `many`: it asks for a pair of a separator and an
element as an option, and does not look at positions. It is a loop all the same (`isLoop_pairs`),
and as long as every pair that is read consumes something it goes round like the one of `many`
(`run_pairs_eq`). What the two make of the values of a pair is changed at the end of the loops
(`openEnded_map`).
-/

namespace Parsing

open Relation

namespace Interleaved

variable {α β : Type}

/-- The separators. -/
def separators (xs : Interleaved α β) : List β :=
  xs.2.map Prod.fst

/-- Between the elements is one separator less than there are elements. -/
theorem length_all (xs : Interleaved α α) : xs.all.length = 2 * xs.separators.length + 1 := by
  obtain ⟨a, pairs⟩ := xs
  induction pairs with
  | nil => rfl
  | cons pair pairs ih =>
    simp only [all, separators, List.length_cons, List.flatMap_cons, List.length_append,
      List.length_map, List.length_nil] at ih ⊢
    omega

/-- The elements stand at the even places and the separators at the odd ones. -/
theorem all_getElem? (xs : Interleaved α α) (i : ℕ) :
    xs.all[2 * i]? = xs.elements[i]? ∧ xs.all[2 * i + 1]? = xs.separators[i]? := by
  obtain ⟨a, pairs⟩ := xs
  induction pairs generalizing a i with
  | nil => cases i <;> exact ⟨rfl, rfl⟩
  | cons pair pairs ih =>
    cases i with
    | zero => exact ⟨rfl, rfl⟩
    -- behind the first element and separator stand the others
    | succ i => exact ih i pair.2

/-- There is one list with given elements and separators at its places. -/
theorem eq_all_iff (xs : Interleaved α α) (as : List α) :
    as = xs.all ↔ as.length = 2 * xs.separators.length + 1 ∧
      ∀ i : ℕ, as[2 * i]? = xs.elements[i]? ∧ as[2 * i + 1]? = xs.separators[i]? := by
  constructor
  · rintro rfl
    exact ⟨xs.length_all, xs.all_getElem?⟩
  · rintro ⟨-, has⟩
    refine List.ext_getElem? fun k => ?_
    obtain ⟨i, rfl | rfl⟩ : ∃ i, k = 2 * i ∨ k = 2 * i + 1 := ⟨k / 2, by omega⟩
    · exact (has i).1.trans (xs.all_getElem? i).1.symm
    · exact (has i).2.trans (xs.all_getElem? i).2.symm

end Interleaved

namespace Recognizer

universe u

/-! ## Changing values -/

section

variable {m : Type → Type u} [Monad m] {C T α β γ δ : Type}

section

variable [LawfulMonad m]

/-- A branch on a mapped recognizer branches on the recognizer. -/
theorem branch_map (f : α → β) (p : Recognizer m C α) (next : β → Recognizer m C γ)
    (otherwise : NoSuccess → Recognizer m C γ) :
    branch (map f p) next otherwise = branch p (fun a => next (f a)) otherwise := by
  funext c
  refine (bind_assoc _ _ _).trans (bind_congr fun o => ?_)
  cases o with
  | success a d => exact pure_bind _ _
  | noSuccess r =>
    -- a failure and an error are handled apart, but alike
    refine (congrArg (· >>= _) (ite_self _)).trans ?_
    exact pure_bind _ _

/-- Mapping the values of two recognizers in turn is putting them together otherwise. -/
theorem map_zip (f : α → β → γ) (g : γ → δ) (p : Recognizer m C α) (q : Recognizer m C β) :
    map g (zip f p q) = zip (fun a b => g (f a b)) p q := by
  funext c
  refine (chain_branch c).trans ?_
  simp only [chain_map, chain_report]
  rfl

/-- Mapping the second of two recognizers is putting their values together otherwise. -/
theorem zip_map_right (f : α → γ → δ) (g : β → γ) (p : Recognizer m C α) (q : Recognizer m C β) :
    zip f p (map g q) = zip (fun a b => f a (g b)) p q := by
  simp only [zip, map_map]

/-- An optional element is a branch. -/
theorem optional_eq (p : Recognizer m C α) :
    optional p = branch p (fun a => succeed (some a)) fun _ => succeed none :=
  branch_map some p _ _

/-- A loop over pairs is a branch on one pair, with a loop behind it. -/
theorem pairs_succ [Halting m] (separator : Recognizer m C β) (element : Recognizer m C α) (n : ℕ) :
    pairs separator element (n + 1) = branch (zip Prod.mk separator element)
      (fun pair => map (List.cons pair) (pairs separator element n)) fun _ => succeed [] := by
  funext c
  rw [pairs, optional_eq]
  refine (chain_branch c).trans ?_
  simp only [chain_succeed]

end

variable [Halting m] [Halting.Lawful m] [Cursor C T]

/-- A loop goes on and ends as it does, whatever is made of the values. -/
theorem openEnded_map (f : α → β) (p : Recognizer m C α) (n : ℕ) :
    openEnded (map f p) n = map (List.map f) (openEnded p n) := by
  induction n with
  | zero => exact (chain_halt _ _).symm
  | succ n ih =>
    funext c
    simp only [openEnded, branch_map, ih]
    refine Eq.trans ?_ (chain_branch c).symm
    simp only [chain_succeed]
    congr 1
    funext a d
    rw [chain_ite, chain_succeed, chain_map, map_map]
    rfl

end

/-! ## Runs that go the same way -/

variable {σ C T α β γ : Type} {c d : C} {s t u : σ} {n : ℕ}

/-- What is done behind a success that does not occur does not matter. -/
theorem run_branch_congr_next {p : Recognizer (Effect σ) C α}
    {next next' : α → Recognizer (Effect σ) C β} {otherwise : NoSuccess → Recognizer (Effect σ) C β}
    (h : ∀ a d t, (p c).run s = (.ok (.success a d), t) → (next a d).run t = (next' a d).run t) :
    (branch p next otherwise c).run s = (branch p next' otherwise c).run s := by
  rw [branch, branch, Effect.run_bind, Effect.run_bind]
  rcases hp : (p c).run s with ⟨halt | ⟨a, d⟩ | r, t⟩
  · rfl
  · exact h a d t hp
  · rfl

/-- Mapping runs that are the same gives runs that are the same. -/
theorem run_map_congr {p q : Recognizer (Effect σ) C α} (f : α → β)
    (h : (p c).run s = (q c).run s) : (map f p c).run s = (map f q c).run s := by
  rw [map, chain, branch, map, chain, branch, Effect.run_bind, Effect.run_bind, h]

/-- A mapped recognizer stops where the recognizer does. -/
theorem run_map_error_iff {p : Recognizer (Effect σ) C α} {f : α → β} {h : Halt} :
    (map f p c).run s = (.error h, u) ↔ (p c).run s = (.error h, u) := by
  rw [map, chain, branch, Effect.run_bind]
  rcases (p c).run s with ⟨halt | ⟨a, d⟩ | r, t⟩
  · simp
  · simp [succeed]
  · simp [report]

variable [Cursor C T] {element : Recognizer (Effect σ) C α} {separator : Recognizer (Effect σ) C β}

/-! ## Pairs -/

/-- The loop over pairs is one that is content with what it has. -/
theorem isLoop_pairs (separator : Recognizer (Effect σ) C β) (element : Recognizer (Effect σ) C α) :
    IsLoop (fun _ _ => True) (zip Prod.mk separator element) (fun _ => succeed [])
      (pairs separator element) :=
  fun n _ => congrFun (pairs_succ separator element n) _

/-- Pairs as far as they are there. -/
theorem run_pairs_iff {o : Outcome C (List (β × α))} :
    (pairs separator element n c).run s = (.ok o, u) ↔
      ∃ xs l, Applies (zip Prod.mk separator element) (c, s) xs l ∧ xs.length < n ∧
        ∃ r, (zip Prod.mk separator element l.1).run l.2 = (.ok (.noSuccess r), u) ∧
          o = .givenUp xs l.1 r := by
  rw [(isLoop_pairs separator element).run_iff]
  refine exists_congr fun xs => exists_congr fun l => ?_
  constructor
  · rintro ⟨o', happlies, rfl, ⟨-, hend⟩ | ⟨hlt, ⟨a, d, -, hd, -⟩ | hlast⟩⟩
    · cases hend
    · exact absurd trivial hd
    · obtain ⟨r, hp, rfl⟩ := fallsBack_succeed_iff.mp hlast
      exact ⟨happlies, hlt, r, hp, Outcome.map_append_ite xs l.1 r⟩
  · rintro ⟨happlies, hlt, r, hp, rfl⟩
    exact ⟨_, happlies, (Outcome.map_append_ite xs l.1 r).symm,
      .inr ⟨hlt, .inr (fallsBack_succeed_iff.mpr ⟨r, hp, rfl⟩)⟩⟩

/-- Whether every pair consumes something that is read from a place on, pair after pair. -/
def PairsConsume (separator : Recognizer (Effect σ) C β) (element : Recognizer (Effect σ) C α)
    (k : C × σ) : Prop :=
  ∀ l m, ReflTransGen (ReadsPair separator element) k l → ReadsPair separator element l m →
    Cursor.position m.1 ≠ Cursor.position l.1

/-- Pairs that always consume do so behind one of them, too. -/
theorem PairsConsume.readsPair {k l : C × σ} (h : PairsConsume separator element k)
    (hkl : ReadsPair separator element k l) : PairsConsume separator element l :=
  fun l' m hl hm => h l' m (hl.head hkl) hm

/-- If all pairs consume something, it does not matter that the loop of pairs does not watch the
position. -/
theorem run_pairs_eq (h : PairsConsume separator element (c, s)) :
    (pairs separator element n c).run s =
      (openEnded (zip Prod.mk separator element) n c).run s := by
  induction n generalizing c s with
  | zero => rfl
  | succ n ih =>
    rw [pairs_succ]
    refine run_branch_congr_next fun pair d t hpair => ?_
    have hread : ReadsPair separator element (c, s) (d, t) := ⟨pair, hpair⟩
    rw [if_neg (h _ _ .refl hread)]
    exact run_map_congr (List.cons pair) (ih (h.readsPair hread))

/-! ## One element, and pairs -/

/-- Whether one element is read, and then pairs of a separator and an element up to a place where
the next pair fails. There are fewer pairs than the bound. -/
def ReadsJoined (n : ℕ) (element : Recognizer (Effect σ) C α)
    (separator : Recognizer (Effect σ) C β) (c : C) (s : σ) (xs : Interleaved α β) (d : C) (u : σ) :
    Prop :=
  ∃ e t v r, (element c).run s = (.ok (.success xs.1 e), t) ∧
    Applies (zip Prod.mk separator element) (e, t) xs.2 (d, v) ∧ xs.2.length < n ∧
    (zip Prod.mk separator element d).run v = (.ok (.noSuccess r), u) ∧ r.isFailure = true

/-- Elements with separators succeed where they are read as such. -/
theorem run_joined_success_iff {xs : Interleaved α β} :
    (joined n element separator c).run s = (.ok (.success xs d), u) ↔
      ReadsJoined n element separator c s xs d u := by
  rw [joined, run_zip_iff]
  constructor
  · rintro (⟨a, e, t, o, ha, hpairs, heq⟩ | ⟨r, -, heq⟩)
    · obtain ⟨ys, l, happlies, hlt, r, hr, rfl⟩ := run_pairs_iff.mp hpairs
      rw [Outcome.givenUp] at heq
      split at heq
      · cases heq
        exact ⟨e, t, l.2, r, ha, happlies, hlt, hr, ‹_›⟩
      · cases heq
    · cases heq
  · rintro ⟨e, t, v, r, ha, happlies, hlt, hr, hfailure⟩
    refine .inl ⟨xs.1, e, t, .success xs.2 d, ha, ?_, rfl⟩
    exact run_pairs_iff.mpr ⟨xs.2, (d, v), happlies, hlt, r, hr,
      Outcome.success_eq_givenUp_iff.mpr ⟨hfailure, rfl, rfl⟩⟩

/-- Mapped, they succeed with the image of what was read. -/
theorem run_map_joined_success_iff {f : Interleaved α β → γ} {value : γ} :
    (map f (joined n element separator) c).run s = (.ok (.success value d), u) ↔
      ∃ xs, ReadsJoined n element separator c s xs d u ∧ value = f xs := by
  rw [run_map_iff]
  constructor
  · rintro ⟨⟨xs, e⟩ | r, hrun, heq⟩
    · cases heq
      exact ⟨xs, run_joined_success_iff.mp hrun, rfl⟩
    · cases heq
  · rintro ⟨xs, hreads, rfl⟩
    exact ⟨_, run_joined_success_iff.mpr hreads, rfl⟩

/-- One element, and pairs of a separator and an element as far as they are there:
* if every pair that is read consumes something, the elements come out of the same run as those of
  one element and then of `many`, with separators that are dropped;
* a success ends where the last whole pair ended, before a pair that fails;
* keeping the separators changes the values of successes only: the elements are at the even places,
  and between them, at the odd ones, the separators. -/
theorem run_joined (element : Recognizer (Effect σ) C α) (c : C) (s : σ) (n : ℕ) :
    (∀ (β : Type) (separator : Recognizer (Effect σ) C β),
      ((∀ a d t, (element c).run s = (.ok (.success a d), t) →
          PairsConsume separator element (d, t)) →
        (map Interleaved.elements (joined n element separator) c).run s =
          (zip List.cons element (many n (zip (fun _ a => a) separator element)) c).run s) ∧
      ∀ as d u, (map Interleaved.elements (joined n element separator) c).run s =
          (.ok (.success as d), u) ↔
        ∃ xs, ReadsJoined n element separator c s xs d u ∧ as = xs.elements) ∧
    ∀ separator : Recognizer (Effect σ) C α,
      (∀ as d u, (map Interleaved.all (joined n element separator) c).run s =
          (.ok (.success as d), u) ↔
        ∃ xs, ReadsJoined n element separator c s xs d u ∧
          (map Interleaved.elements (joined n element separator) c).run s =
            (.ok (.success xs.elements d), u) ∧
          as.length = 2 * xs.separators.length + 1 ∧
          ∀ i : ℕ, as[2 * i]? = xs.elements[i]? ∧ as[2 * i + 1]? = xs.separators[i]?) ∧
      (∀ r u, (map Interleaved.all (joined n element separator) c).run s =
          (.ok (.noSuccess r), u) ↔
        (map Interleaved.elements (joined n element separator) c).run s =
          (.ok (.noSuccess r), u)) ∧
      ∀ h u, (map Interleaved.all (joined n element separator) c).run s = (.error h, u) ↔
        (map Interleaved.elements (joined n element separator) c).run s = (.error h, u) := by
  refine ⟨fun β separator => ⟨fun hconsume => ?_, fun as d u => run_map_joined_success_iff⟩,
    fun separator => ⟨fun as d u => ?_, fun r u => ?_, fun h u => ?_⟩⟩
  · -- both sides are the element and a loop over pairs, the values of which are changed alike
    have hpairs : zip (fun _ a => a) separator element =
        map Prod.snd (zip Prod.mk separator element) := (map_zip Prod.mk Prod.snd _ _).symm
    rw [joined, map_zip, many_eq, hpairs, openEnded_map, zip_map_right]
    refine run_branch_congr_next fun a d t ha => ?_
    exact run_map_congr _ (run_pairs_eq (hconsume a d t ha))
  · -- a list is all of an interleaving if its even and odd places are
    simp only [← Interleaved.eq_all_iff]
    rw [run_map_joined_success_iff]
    refine exists_congr fun xs => and_congr_right fun hreads => ?_
    have helements := (run_map_joined_success_iff (f := Interleaved.elements)).mpr
      ⟨xs, hreads, rfl⟩
    rw [and_iff_right helements]
  · simp only [run_map_iff]
    refine exists_congr fun o => and_congr_right fun _ => ?_
    cases o <;> simp
  · simp only [run_map_error_iff]

namespace Letters

/-- A test on one token that succeeds moves on. -/
theorem position_lt_of_run_satisfy {expected : String} {accepts : Char → Bool} {c d : TextReader}
    {a : Char} {s t : Unit}
    (h : (satisfy (m := Effect Unit) expected accepts c).run s = (.ok (.success a d), t)) :
    Cursor.position c < Cursor.position d := by
  unfold satisfy at h
  split at h
  · rename_i token hcurrent
    split at h
    · cases h
      refine Cursor.Lawful.position_lt_position_next fun hend => ?_
      have hrest : c.rest = [] := List.length_eq_zero_iff.mp hend
      have hnone : Cursor.current c = none := congrArg List.head? hrest
      rw [hnone] at hcurrent
      cases hcurrent
    · cases h
  · cases h

/-- A comma and a letter consume. -/
theorem pairsConsume (k : TextReader × Unit) : PairsConsume comma letter k := by
  rintro l m - ⟨pair, hrun⟩
  rcases run_zip_iff.mp hrun with ⟨a, d, t, o, ha, ho, heq⟩ | ⟨r, -, heq⟩
  · cases o with
    | success b e =>
      cases heq
      exact Nat.ne_of_gt (Nat.lt_trans (position_lt_of_run_satisfy ha)
        (position_lt_of_run_satisfy ho))
    | noSuccess r => cases heq
  · cases heq

end Letters

open Letters in
/-- The comma that no letter follows is left. -/
theorem run_joined_letters :
    (zip List.cons letter (many 3 (zip (fun _ a => a) comma letter)) start).run () =
      (.ok (.success ['a', 'b'] (Cursor.next^[3] start)), ()) ∧
    (map Interleaved.elements (joined 3 letter comma) start).run () =
      (.ok (.success ['a', 'b'] (Cursor.next^[3] start)), ()) := by
  have hrun : (zip List.cons letter (many 3 (zip (fun _ a => a) comma letter)) start).run () =
      (.ok (.success ['a', 'b'] (Cursor.next^[3] start)), ()) := rfl
  have hsame := ((run_joined letter start () 3).1 Char comma).1 fun _ _ _ _ => pairsConsume _
  exact ⟨hrun, hsame.trans hrun⟩

end Recognizer

end Parsing
