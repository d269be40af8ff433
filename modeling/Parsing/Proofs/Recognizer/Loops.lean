import Mathlib.Order.WellFounded
import Mathlib.Logic.Relation
import Parsing.Parser.Text
import Parsing.Proofs.Parser.Ahead
import Parsing.Proofs.Parser.Conditions
import Parsing.Proofs.Parser.Refinement
import Parsing.Proofs.Recognizer.Runs

/-!
# Loops

A loop runs a recognizer that always returns (`Returns`) again and again. The loops of `many`,
`manyOne` and `repeated` come to an end, since every round but the last one leaves fewer tokens
(`Returns.openEnded`). The loop of `joined` does not look at that: it comes to an end if no place
is reached at which pairs of a separator and an element are read for ever without a step ahead
(`exists_run_joined_iff`).
-/

namespace Parsing

open Cursor Relation

variable {σ C T α β γ : Type} [Cursor C T]

/-! ## One recognizer after another -/

namespace Abides

variable {P : σ → Prop} {E : Halt → σ → Prop} {base c : C} {p : Recognizer (Effect σ) C α}
  {q : Recognizer (Effect σ) C β}

/-- A branch abides if its parts do. -/
theorem branch {next : α → Recognizer (Effect σ) C β}
    {otherwise : NoSuccess → Recognizer (Effect σ) C β} (hp : Abides P (·.Within base) E (p c))
    (hnext : ∀ a d, After base d → Abides P (·.Within base) E (next a d))
    (hotherwise : ∀ r, Abides P (·.Within base) E (otherwise r c)) :
    Abides P (·.Within base) E (Recognizer.branch p next otherwise c) := by
  refine hp.bind fun o ho => ?_
  cases o with
  | success a d => exact hnext a d ho
  | noSuccess r =>
    simp only
    split
    · exact hotherwise r
    · exact .pure (Outcome.within_noSuccess base r)

/-- A value may be returned where a run has come to. -/
theorem succeed (a : α) (h : After base c) :
    Abides P (·.Within base) E (Recognizer.succeed a c) :=
  .pure h

/-- Mapping abides. -/
theorem map (f : α → β) (hp : Abides P (·.Within base) E (p c)) :
    Abides P (·.Within base) E (Recognizer.map f p c) :=
  hp.branch (fun a _ hd => .succeed (f a) hd) fun r => .pure (Outcome.within_noSuccess base r)

/-- Two recognizers in turn abide if both do. -/
theorem zip (f : α → β → γ) (hp : Abides P (·.Within base) E (p c))
    (hq : ∀ d, After base d → Abides P (·.Within base) E (q d)) :
    Abides P (·.Within base) E (Recognizer.zip f p q c) :=
  hp.branch (fun a d hd => (hq d hd).map (f a)) fun r => .pure (Outcome.within_noSuccess base r)

/-- What may not stop comes to an outcome. -/
theorem exists_run {V : α → Prop} {x : Effect σ α} (h : Abides P V (fun _ _ => False) x) {s : σ}
    (hs : P s) : ∃ a t, x.run s = (.ok a, t) ∧ P t ∧ V a := by
  rcases hx : x.run s with ⟨halt | a, t⟩
  · exact (h.of_error hs hx).elim
  · exact ⟨a, t, rfl, h.of_ok hs hx⟩

end Abides

namespace Recognizer

/-- Whether a recognizer always comes to an outcome from a cursor on: from all states that satisfy a
condition, to such states again, and without going back. -/
def Returns (P : σ → Prop) (base : C) (p : Recognizer (Effect σ) C α) : Prop :=
  ∀ c, After base c → Abides P (·.Within c) (fun _ _ => False) (p c)

section

variable {P : σ → Prop} {base c : C} {p : Recognizer (Effect σ) C α}

/-- What returns further ahead is behind the cursor, too. -/
theorem Returns.abides (h : p.Returns P base) (hbase : After base c) {d : C} (hd : After c d) :
    Abides P (·.Within c) (fun _ _ => False) (p d) :=
  (h d (hbase.trans hd)).imp (fun _ ho => ho.trans hd) fun _ _ => id

/-- A mapped recognizer returns. -/
theorem Returns.map (f : α → β) (h : p.Returns P base) : (map f p).Returns P base :=
  fun c hc => (h c hc).map f

/-- Two recognizers in turn return if both do. -/
theorem Returns.zip (f : α → β → γ) (h : p.Returns P base) {q : Recognizer (Effect σ) C β}
    (hq : q.Returns P base) : (zip f p q).Returns P base :=
  fun c hc => (h c hc).zip f fun _ hd => hq.abides hc hd

/-! ## Loops that watch the position -/

/-- A loop of fixed length returns if each round does. -/
theorem Returns.times (h : p.Returns P base) (n : ℕ) : (times p n).Returns P base := by
  induction n with
  | zero => exact fun c _ => .succeed [] (.refl c)
  | succ n ih => exact h.zip List.cons ih

/-- A loop with an upper bound returns if each round does. -/
theorem Returns.upTo (h : p.Returns P base) (n : ℕ) : (upTo p n).Returns P base := by
  induction n with
  | zero => exact fun c _ => .succeed [] (.refl c)
  | succ n ih =>
    exact fun c hc => (h c hc).branch (fun a d hd => (ih.abides hc hd).map _)
      fun _ => .succeed [] (.refl c)

variable [Cursor.Lawful C]

/-- A round that is not the last one leaves fewer tokens, so that the bound of the loop suffices if
it exceeds their number. -/
theorem Returns.openEnded (h : p.Returns P base) (hc : After base c) {n : ℕ}
    (hn : Lawful.remaining c < n) :
    Abides P (·.Within c) (fun _ _ => False) (openEnded p n c) := by
  induction n generalizing c with
  | zero => exact absurd hn (Nat.not_lt_zero _)
  | succ n ih =>
    refine (h c hc).branch (fun a d hd => ?_) fun _ => .succeed [] (.refl c)
    split
    · exact .succeed [a] hd
    · rename_i hmoved
      have hlt : Lawful.remaining d < n := Nat.lt_of_lt_of_le (hd.remaining_lt hmoved)
        (Nat.le_of_lt_succ hn)
      exact ((ih (hc.trans hd) hlt).imp (fun _ ho => ho.trans hd) fun _ _ => id).map (List.cons a)

/-- A loop over an element returns within a bound above what is left to read. -/
theorem Returns.many (h : p.Returns P c) {n : ℕ} (hn : Lawful.remaining c < n) :
    Abides P (·.Within c) (fun _ _ => False) (many n p c) := by
  rw [many_eq]
  exact h.openEnded (.refl c) hn

/-- So does one that wants at least one element. -/
theorem Returns.manyOne (h : p.Returns P c) {n : ℕ} (hn : Lawful.remaining c < n) :
    Abides P (·.Within c) (fun _ _ => False) (manyOne n p c) := by
  rw [manyOne_eq]
  refine (h c (.refl c)).branch (fun a d hd => ?_) fun r =>
    .pure (Outcome.within_noSuccess c r)
  split
  · exact .succeed [a] hd
  · have hlt : Lawful.remaining d < n := Nat.lt_of_le_of_lt hd.remaining_le hn
    exact ((h.openEnded hd hlt).imp (fun _ ho => ho.trans hd) fun _ _ => id).map (List.cons a)

/-- So does a repetition, whatever its range. -/
theorem Returns.repeated (h : p.Returns P c) (range : CountRange) {n : ℕ}
    (hn : Lawful.remaining c < n) :
    Abides P (·.Within c) (fun _ _ => False) (repeated n range p c) := by
  rw [repeated_eq]
  split
  · exact .succeed [] (.refl c)
  · refine (h.times range.least c (.refl c)).zip _ fun d hd => ?_
    cases range.greatest? with
    | none =>
      have hlt : Lawful.remaining d < n := Nat.lt_of_le_of_lt hd.remaining_le hn
      exact (h.openEnded hd hlt).imp (fun _ ho => ho.trans hd) fun _ _ => id
    | some k => exact (h.upTo _).abides (.refl c) hd

end

/-! ## Pairs -/

section Pairs

/-- Whether a separator and an element are read between two places, each with the state there. -/
def ReadsPair (separator : Recognizer (Effect σ) C β) (element : Recognizer (Effect σ) C α)
    (k l : C × σ) : Prop :=
  ∃ pair, (zip Prod.mk separator element k.1).run k.2 = (.ok (.success pair l.1), l.2)

/-- Whether pairs lead to a place where they are read for ever without a step ahead. -/
def Stalls (separator : Recognizer (Effect σ) C β) (element : Recognizer (Effect σ) C α)
    (k : C × σ) : Prop :=
  ∃ l, ReflTransGen (ReadsPair separator element) k l ∧
    ∃ u : ℕ → σ, u 0 = l.2 ∧ ∀ n, ReadsPair separator element (l.1, u n) (l.1, u (n + 1))

variable {separator : Recognizer (Effect σ) C β} {element : Recognizer (Effect σ) C α}
  {P : σ → Prop} {base c d : C} {s t : σ} {k l : C × σ}

/-- A pair that is there is followed by the others. -/
theorem run_pairs_of_readsPair {pair : β × α}
    (h : (zip Prod.mk separator element c).run s = (.ok (.success pair d), t)) (n : ℕ) :
    (pairs separator element (n + 1) c).run s =
      (map (List.cons pair) (pairs separator element n) d).run t := by
  have hmap : (map some (zip Prod.mk separator element) c).run s =
      (.ok (.success (some pair) d), t) := run_branch_success h
  have hoptional : (optional (zip Prod.mk separator element) c).run s =
      (.ok (.success (some pair) d), t) := run_branch_success hmap
  exact run_branch_success hoptional

/-- A pair that is not there ends the loop, or all. -/
theorem exists_run_pairs_of_noSuccess {r : NoSuccess}
    (h : (zip Prod.mk separator element c).run s = (.ok (.noSuccess r), t)) (n : ℕ) :
    ∃ o, (pairs separator element (n + 1) c).run s = (.ok o, t) := by
  have hmap : (map some (zip Prod.mk separator element) c).run s = (.ok (.noSuccess r), t) := by
    by_cases hr : r.isFailure = true
    · exact run_branch_failure hr h
    · exact run_branch_error hr h
  by_cases hr : r.isFailure = true
  · have hoptional : (optional (zip Prod.mk separator element) c).run s =
        (.ok (.success none c), t) := run_branch_failure hr hmap
    exact ⟨_, run_branch_success hoptional⟩
  · have hoptional : (optional (zip Prod.mk separator element) c).run s =
        (.ok (.noSuccess r), t) := run_branch_error hr hmap
    exact ⟨_, run_branch_error hr hoptional⟩

/-- A loop that comes to an end reads no more pairs then. -/
theorem acc_of_run_pairs {n : ℕ} {o : Outcome C (List (β × α))}
    (h : (pairs separator element n k.1).run k.2 = (.ok o, t)) :
    Acc (fun l k => ReadsPair separator element k l) k := by
  induction n generalizing k o t with
  | zero => cases h
  | succ n ih =>
    refine .intro k fun l hl => ?_
    obtain ⟨pair, hl⟩ := hl
    rw [run_pairs_of_readsPair hl] at h
    obtain ⟨o', t', hrun⟩ := (exists_run_map_iff _).mp ⟨o, t, h⟩
    exact ih hrun

/-- If there is an end to the pairs, there is one to the loop. -/
theorem exists_run_pairs_of_acc (hseparator : separator.Returns P base)
    (helement : element.Returns P base)
    (hacc : Acc (fun l k => ReadsPair separator element k l) k) (hk : After base k.1)
    (hs : P k.2) : ∃ n o t, (pairs separator element n k.1).run k.2 = (.ok o, t) := by
  induction hacc with
  | intro k _ ih =>
    obtain ⟨o, t, hrun, hP, hafter⟩ := (hseparator.zip Prod.mk helement k.1 hk).exists_run hs
    cases o with
    | success pair d =>
      obtain ⟨n, o', t', hrun'⟩ := ih (d, t) ⟨pair, hrun⟩ (hk.trans hafter) hP
      obtain ⟨o, t, hmap⟩ := (exists_run_map_iff (List.cons pair)).mpr ⟨o', t', hrun'⟩
      exact ⟨n + 1, o, t, (run_pairs_of_readsPair hrun n).trans hmap⟩
    | noSuccess r =>
      obtain ⟨o, hpairs⟩ := exists_run_pairs_of_noSuccess hrun 0
      exact ⟨1, o, t, hpairs⟩

/-- Pairs that lead to a place where they stall have no end. -/
theorem Stalls.not_acc (h : Stalls separator element k) :
    ¬ Acc (fun l k => ReadsPair separator element k l) k := by
  obtain ⟨l, hreads, u, hu, hstep⟩ := h
  have hl : ¬ Acc (fun l k => ReadsPair separator element k l) l :=
    not_acc_iff_exists_descending_chain.mpr ⟨fun n => (l.1, u n), Prod.ext rfl hu, hstep⟩
  clear hu hstep
  induction hreads using ReflTransGen.head_induction_on with
  | refl => exact hl
  | head hread _ ih => exact fun hacc => ih (hacc.inv hread)

/-- Behind its first element, the loop of `joined` is that of the pairs. -/
theorem exists_run_joined_of_success {a : α} (ha : (element c).run s = (.ok (.success a d), t))
    (n : ℕ) : (∃ o u, (joined n element separator c).run s = (.ok o, u)) ↔
      ∃ o u, (pairs separator element n d).run t = (.ok o, u) := by
  have hrun : (joined n element separator c).run s =
      (map (Prod.mk a) (pairs separator element n) d).run t := run_branch_success ha
  rw [hrun, exists_run_map_iff]

/-- Behind an element after which pairs stall, no bound suffices. -/
theorem not_exists_run_joined_of_stalls {a : α} (ha : (element c).run s = (.ok (.success a d), t))
    (h : Stalls separator element (d, t)) (n : ℕ) :
    ¬ ∃ o u, (joined n element separator c).run s = (.ok o, u) := by
  rw [exists_run_joined_of_success ha]
  rintro ⟨o, u, hrun⟩
  exact h.not_acc (acc_of_run_pairs hrun)

variable [Cursor.Lawful C]

/-- Pairs without an end stall: from some place on no fewer tokens are left. -/
theorem stalls_of_not_acc (hseparator : separator.Returns P base)
    (helement : element.Returns P base) (hk : After base k.1) (hs : P k.2)
    (h : ¬ Acc (fun l k => ReadsPair separator element k l) k) : Stalls separator element k := by
  obtain ⟨f, rfl, hf⟩ := not_acc_iff_exists_descending_chain.mp h
  have hahead {k l : C × σ} (hk : After base k.1) (hs : P k.2)
      (hread : ReadsPair separator element k l) : P l.2 ∧ After k.1 l.1 := by
    obtain ⟨pair, hrun⟩ := hread
    exact (hseparator.zip Prod.mk helement k.1 hk).of_ok hs hrun
  have hinvariant (n : ℕ) : After base (f n).1 ∧ P (f n).2 := by
    induction n with
    | zero => exact ⟨hk, hs⟩
    | succ n ih =>
      obtain ⟨hP, hafter⟩ := hahead ih.1 ih.2 (hf n)
      exact ⟨ih.1.trans hafter, hP⟩
  have hafter (m n : ℕ) : After (f m).1 (f (m + n)).1 := by
    induction n with
    | zero => exact .refl _
    | succ n ih =>
      obtain ⟨hbase, hP⟩ := hinvariant (m + n)
      exact ih.trans (hahead hbase hP (hf (m + n))).2
  have hreads (n : ℕ) : ReflTransGen (ReadsPair separator element) (f 0) (f n) := by
    induction n with
    | zero => exact .refl
    | succ n ih => exact ih.tail (hf n)
  -- a place with the fewest tokens left
  obtain ⟨m, -, hm⟩ := (measure fun n => Lawful.remaining (f n).1).wf.has_min Set.univ
    ⟨0, Set.mem_univ 0⟩
  have hsame (n : ℕ) : (f (m + n)).1 = (f m).1 := by
    by_contra hne
    have hposition := mt (hafter m n).eq_of_position_eq hne
    exact hm (m + n) (Set.mem_univ _) ((hafter m n).remaining_lt hposition)
  refine ⟨f m, hreads m, fun n => (f (m + n)).2, rfl, fun n => ?_⟩
  have hplace (n : ℕ) : ((f m).1, (f (m + n)).2) = f (m + n) := Prod.ext (hsame n).symm rfl
  rw [hplace n, hplace (n + 1)]
  exact hf (m + n)

end Pairs

/-- The loops over what always returns:
* those of `many`, `manyOne` and `repeated` come to an end, and do so in no more rounds than there
  are tokens, and one;
* that of `joined` comes to an end just if pairs do not stall behind the first element. -/
theorem exists_run_joined_iff [Cursor.Lawful C] {P : σ → Prop} {c : C} {s : σ}
    {element : Recognizer (Effect σ) C α} {separator : Recognizer (Effect σ) C β}
    (helement : element.Returns P c) (hseparator : separator.Returns P c) (hs : P s)
    (f : Interleaved α β → γ) :
    (∀ n, Lawful.remaining c < n →
      (∃ o t, (many n element c).run s = (.ok o, t)) ∧
      (∃ o t, (manyOne n element c).run s = (.ok o, t)) ∧
      ∀ range, ∃ o t, (repeated n range element c).run s = (.ok o, t)) ∧
    ((∃ n o t, (map f (joined n element separator) c).run s = (.ok o, t)) ↔
      ∀ a d t, (element c).run s = (.ok (.success a d), t) →
        ¬ Stalls separator element (d, t)) := by
  refine ⟨fun n hn => ⟨?_, ?_, fun range => ?_⟩, ⟨?_, fun hstalls => ?_⟩⟩
  · obtain ⟨o, t, hrun, -⟩ := (helement.many hn).exists_run hs
    exact ⟨o, t, hrun⟩
  · obtain ⟨o, t, hrun, -⟩ := (helement.manyOne hn).exists_run hs
    exact ⟨o, t, hrun⟩
  · obtain ⟨o, t, hrun, -⟩ := (helement.repeated range hn).exists_run hs
    exact ⟨o, t, hrun⟩
  · -- a run that has ended has not stalled
    rintro ⟨n, hrun⟩ a d t ha hstalls
    exact not_exists_run_joined_of_stalls ha hstalls n ((exists_run_map_iff f).mp hrun)
  · -- pairs that do not go on forever are accessible from behind the first element, which bounds
    -- the loop
    obtain ⟨o, t, hrun, hP, hafter⟩ := (helement c (.refl c)).exists_run hs
    cases o with
    | success a d =>
      have hacc : Acc (fun l k => ReadsPair separator element k l) (d, t) := by
        by_contra hacc
        exact hstalls a d t hrun (stalls_of_not_acc hseparator helement hafter hP hacc)
      obtain ⟨n, hpairs⟩ := exists_run_pairs_of_acc hseparator helement hacc hafter hP
      refine ⟨n, ?_⟩
      rw [exists_run_map_iff, exists_run_joined_of_success hrun]
      exact hpairs
    | noSuccess r =>
      refine ⟨0, ?_⟩
      rw [exists_run_map_iff]
      by_cases hr : r.isFailure = true
      · exact ⟨_, _, run_branch_failure hr hrun⟩
      · exact ⟨_, _, run_branch_error hr hrun⟩

/-! ### Letters and commas -/

namespace Letters

def letter : Recognizer (Effect Unit) TextReader Char :=
  satisfy "a letter" Char.isAlpha

def comma : Recognizer (Effect Unit) TextReader Char :=
  satisfy "a comma" (· == ',')

def start : TextReader :=
  .ofChars ['a', ',', 'b', ','] (.offset 0) ⟨0⟩

/-- A test on one token returns. -/
theorem returns_satisfy (expected : String) (accepts : Char → Bool) :
    (satisfy (m := Effect Unit) expected accepts).Returns (fun _ => True) start := by
  intro c _
  unfold satisfy
  split
  · split
    · exact .succeed _ (After.refl c).next
    · exact .pure (Outcome.within_noSuccess c _)
  · exact .pure (Outcome.within_noSuccess c _)

end Letters

open Letters in
/-- The last comma has no letter behind it. -/
theorem exists_run_joined_iff_letters :
    (∃ o t, (many 5 letter start).run () = (.ok o, t)) ∧
      ¬ Stalls comma letter (Cursor.next start, ()) := by
  have hiff := exists_run_joined_iff (returns_satisfy "a letter" Char.isAlpha)
    (returns_satisfy "a comma" (· == ',')) (s := ()) trivial Interleaved.elements
  refine ⟨(hiff.1 5 (by decide)).1, ?_⟩
  exact hiff.2.mp ⟨3, .success ['a', 'b'] (Cursor.next^[3] start), (), rfl⟩ 'a' _ () rfl

end Recognizer

namespace Parser

/-! ### What may be missing, separated by what may be missing -/

open Recognizer

namespace Missing

/-- An `a`, if there is one. -/
def element : Parser TextPrimitive Unit (Option Char) :=
  .optional (.char 'a')

def start : TextReader :=
  .ofChars [] (.lineColumn {}) ⟨0⟩

/-- The loop over an element and spaces that are empty stands still. -/
theorem stalls (env : Environment TextPrimitive Unit) (fuel : ℕ) (ctx : Context TextPrimitive Unit)
    (s : Session TextReader Unit) :
    Stalls (answer env (fuel + 2) ctx.build ctx.scope .same spaces)
      (answer env (fuel + 2) ctx.build ctx.scope .same element) (start, s) :=
  ⟨(start, s), .refl, fun _ => s, rfl, fun _ => ⟨("", none), rfl⟩⟩

end Missing

open Missing in
/-- Both parsers return at the end of a text, without a step ahead. The loop over them does not. -/
theorem not_exists_run_joinedBy_missing :
    (∀ (env : Environment TextPrimitive Unit) (fuel : ℕ) (s : Session TextReader Unit),
      element.run env (fuel + 2) {} start s = (.ok (.success none start), s) ∧
      spaces.run env (fuel + 2) {} start s = (.ok (.success "" start), s)) ∧
    ¬ ∃ (env : Environment TextPrimitive Unit) (fuel : ℕ) (s : Session TextReader Unit)
      (o : Outcome TextReader (List (Option Char))),
      ((joinedBy element spaces).run env fuel {} start s).1 = .ok o := by
  refine ⟨fun env fuel s => ⟨rfl, rfl⟩, ?_⟩
  rintro ⟨env, fuel, s, o, hrun⟩
  -- a greater bound does not help, so that it may be great enough for both parsers
  obtain ⟨t, ht, -⟩ := eval_follows env (Nat.le_add_right fuel 4) rfl (joinedBy element spaces)
    start s s rfl o _ (Prod.ext hrun rfl)
  have helement : (answer env (fuel + 2) ⟨0⟩ [] .same element start).run s =
      (.ok (.success none start), s) := rfl
  have hmap : (Recognizer.map Interleaved.elements
      (answer env (fuel + 3) ⟨0⟩ [] .same (.joined element spaces)) start).run s = (.ok o, t) := ht
  obtain ⟨o', t', hjoined⟩ := (exists_run_map_iff _).mp ⟨o, t, hmap⟩
  exact not_exists_run_joined_of_stalls helement (stalls env fuel {} s) (fuel + 2)
    ⟨o', t', hjoined⟩

end Parser

end Parsing
