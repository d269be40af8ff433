import Parsing.Operator.Table
import Parsing.Proofs.Cursor.Pairing
import Parsing.Proofs.Operator.Grouping
import Parsing.Proofs.Parser.Settled

/-!
# Layers of operators read what their level groups

A parser interprets some readings (`Parser.Interprets`) if it reads every list of tokens that has
one, wherever that is not followed by a token that might belong to it, and if it comes to nothing
but readings and refusals. If a parser interprets the operands of a level, then a layer around it
interprets the operands with the operators of that level (`interprets_leftLayer` and the lemmas
beside it).

The loops in a layer stop at the right place because an operator is told from what may follow an
operand by one token. Grouping from the right, the last operand is read twice: once on the way to an
operator that is not there, and again.
-/

namespace Parsing

open Readings

namespace TokenReader

variable {T : Type} [Newline T] {c : TokenReader T} {w r : List T}

/-- Behind the tokens that come first stand those that come after. -/
theorem rest_of_passed (h : c.rest = w ++ r) : (Cursor.next^[w.length] c).rest = r := by
  have hdrop : (Cursor.next^[w.length] c).rest = c.rest.drop w.length :=
    Cursor.tokens_iterate_next c w.length
  rw [hdrop, h, List.drop_left]

/-- Passing tokens changes the position. -/
theorem position_ne_of_passed (h : c.rest = w ++ r) (hw : w ≠ []) :
    Cursor.position (Cursor.next^[w.length] c) ≠ Cursor.position c := by
  intro hposition
  have hself := Cursor.After.eq_of_position_eq ⟨w.length, rfl⟩ hposition
  have hlength := congrArg List.length (rest_of_passed h)
  rw [hself, h, List.length_append] at hlength
  have hpos := List.length_pos_of_ne_nil hw
  omega

end TokenReader

namespace Parser

open TokenReader

variable {π : Type → Type} {T ρ α β γ O : Type} [Newline T] [Primitive π]
  [Primitive.Runs π (TokenReader T)] {env : Environment π ρ} {p : Parser π ρ α} {q : Parser π ρ β}
  {c : TokenReader T} {u v w r : List T} {a : α} {b : β}

/-! ## Reading a list of tokens -/

/-- Whether an expression settles on a value behind some tokens. -/
def Reads (env : Environment π ρ) (p : Parser π ρ α) (c : TokenReader T) (w : List T) (a : α) :
    Prop :=
  p.Settles env c (.success a (Cursor.next^[w.length] c))

/-- Two expressions in turn read two stretches of tokens. -/
theorem Reads.zip (f : α → β → γ) (hp : p.Reads env c u a)
    (hq : q.Reads env (Cursor.next^[u.length] c) v b) :
    (Parser.zip f p q).Reads env c (u ++ v) (f a b) := by
  have hpassed : Cursor.next^[(u ++ v).length] c =
      Cursor.next^[v.length] (Cursor.next^[u.length] c) := by
    rw [List.length_append, Nat.add_comm, Function.iterate_add_apply]
  rw [Reads, hpassed]
  exact settles_zip f hp hq

/-- Whether an expression takes single tokens with a meaning and refuses all others. -/
structure ReadsTokens (env : Environment π ρ) (p : Parser π ρ α) (meaning : T → α → Prop) :
    Prop where
  reads {c : TokenReader T} {t : T} {r : List T} {a : α} :
    c.rest = t :: r → meaning t a → p.Reads env c [t] a
  refuses {c : TokenReader T} : (∀ t ∈ c.rest.head?, ∀ a, ¬meaning t a) → p.Refuses env c

section ReadsTokens

variable {meaning meaning' : T → α → Prop}

/-- A test on one token takes the tokens that it accepts. -/
theorem readsTokens_satisfy {env : Environment (TokenTest T) ρ} (expected : String)
    (accepts : T → Bool) : (satisfy expected accepts : Parser (TokenTest T) ρ T).ReadsTokens env
      fun t a => accepts t = true ∧ t = a where
  reads {c t r a} hc hmeaning := by
    obtain ⟨ht, rfl⟩ := hmeaning
    have hcurrent : Cursor.current c = some t := congrArg List.head? hc
    refine settles_primitive ?_
    change Recognizer.satisfy expected accepts c = _
    simp only [Recognizer.satisfy, hcurrent, ht, if_true]
    rfl
  refuses {c} hc := by
    have hcurrent : Cursor.current c = c.rest.head? := rfl
    refine ⟨.failure expected (Cursor.location c), rfl, settles_primitive ?_⟩
    change Recognizer.satisfy expected accepts c = _
    rcases hhead : c.rest.head? with _ | t
    · simp only [Recognizer.satisfy, hcurrent, hhead]
      rfl
    · have ht : ¬accepts t = true := fun ht => hc t hhead t ⟨ht, rfl⟩
      simp only [Recognizer.satisfy, hcurrent, hhead, ht]
      rfl

/-- Tokens may be given an equivalent meaning. -/
theorem ReadsTokens.congr (h : p.ReadsTokens env meaning)
    (hmeaning : ∀ t a, meaning t a ↔ meaning' t a) : p.ReadsTokens env meaning' where
  reads hc ht := h.reads hc ((hmeaning _ _).mpr ht)
  refuses hc := h.refuses fun t ht a ha => hc t ht a ((hmeaning t a).mp ha)

/-- The meaning of a token may be mapped. -/
theorem ReadsTokens.map (f : α → β) (h : p.ReadsTokens env meaning) :
    (Parser.map f p).ReadsTokens env fun t b => ∃ a, meaning t a ∧ b = f a where
  reads hc hb := by
    obtain ⟨a, ha, rfl⟩ := hb
    exact settles_map f (h.reads hc ha)
  refuses hc := (h.refuses fun t ht a ha => hc t ht (f a) ⟨a, ha, rfl⟩).map f

/-- A choice among parsers for different tokens reads the tokens of them all. -/
theorem readsTokens_choiceOf {ι : Type*} {is : List ι} {parser? : ι → Option (Parser π ρ α)}
    {meaning : ι → T → α → Prop}
    (hsome : ∀ i ∈ is, ∀ p, parser? i = some p → p.ReadsTokens env (meaning i))
    (hnone : ∀ i ∈ is, parser? i = none → ∀ t a, ¬meaning i t a)
    (hdistinct : is.Pairwise fun i j => ∀ t a b, meaning i t a → ¬meaning j t b) :
    (choiceOf (is.filterMap parser?)).ReadsTokens env fun t a => ∃ i ∈ is, meaning i t a := by
  induction is with
  | nil => exact ⟨fun _ ht => by simp at ht, fun _ => refuses_choiceOf_nil _⟩
  | cons i is ih =>
    obtain ⟨hi, hdistinct⟩ := List.pairwise_cons.mp hdistinct
    have hrest := ih (fun j hj => hsome j (List.mem_cons_of_mem i hj))
      (fun j hj => hnone j (List.mem_cons_of_mem i hj)) hdistinct
    rcases hparser : parser? i with _ | p
    · rw [List.filterMap_cons_none hparser]
      have hi' := hnone i List.mem_cons_self hparser
      refine hrest.congr fun t a => ?_
      simp [hi' t a]
    · rw [List.filterMap_cons_some hparser]
      have hhead := hsome i List.mem_cons_self p hparser
      constructor
      · rintro c t r a hc ⟨j, hj, ht⟩
        rcases List.mem_cons.mp hj with rfl | hj
        · exact settles_choiceOf_head (hhead.reads hc ht)
        · -- no token has a meaning for two of them, so that the first one refuses it
          have hrefuses : p.Refuses env c := hhead.refuses fun t' ht' b hb => by
            rw [hc] at ht'
            cases ht'
            exact hi j hj t b a hb ht
          exact hrefuses.settles_choiceOf_tail (hrest.reads hc ⟨j, hj, ht⟩)
      · intro c hc
        refine (hhead.refuses fun t ht a ha => ?_).refuses_choiceOf
          (hrest.refuses fun t ht a ⟨j, hj, ha⟩ => ?_)
        · exact hc t ht a ⟨i, List.mem_cons_self, ha⟩
        · exact hc t ht a ⟨j, List.mem_cons_of_mem i hj, ha⟩

end ReadsTokens

/-! ## Readings and refusals -/

/-- Whether an expression comes to nothing but readings and refusals. -/
def Decides (env : Environment π ρ) (p : Parser π ρ α) (L : Readings T α) : Prop :=
  ∀ c : TokenReader T, p.Refuses env c ∨ ∃ w r a, c.rest = w ++ r ∧ L w a ∧ p.Reads env c w a

section Decides

variable {L : Readings T α} {M : Readings T β}

/-- What takes single tokens decides about single tokens. -/
theorem ReadsTokens.decides {meaning : T → α → Prop} (h : p.ReadsTokens env meaning) :
    p.Decides env (single meaning) := by
  intro c
  by_cases hhead : ∃ t ∈ c.rest.head?, ∃ a, meaning t a
  · obtain ⟨t, ht, a, ha⟩ := hhead
    have hc : c.rest = t :: c.rest.tail := (List.cons_head?_tail ht).symm
    exact Or.inr ⟨[t], _, a, hc, ⟨t, rfl, ha⟩, h.reads hc ha⟩
  · refine Or.inl (h.refuses fun t ht a ha => hhead ⟨t, ht, a, ha⟩)

/-- Two expressions in turn decide about one part after another. -/
theorem Decides.zip (f : α → β → γ) (hp : p.Decides env L) (hq : q.Decides env M) :
    (Parser.zip f p q).Decides env (both f L M) := by
  intro c
  rcases hp c with hrefuses | ⟨u, r, a, hc, ha, hread⟩
  · exact Or.inl (hrefuses.zip f)
  · rcases hq (Cursor.next^[u.length] c) with hrefuses | ⟨v, r', b, hc', hb, hread'⟩
    · exact Or.inl (refuses_zip_of_settles f hread hrefuses)
    · rw [rest_of_passed hc] at hc'
      refine Or.inr ⟨u ++ v, r', f a b, ?_, ⟨u, a, v, b, ha, hb, rfl, rfl⟩, hread.zip f hread'⟩
      rw [hc, hc', List.append_assoc]

/-- An optional expression decides about a part, or nothing. -/
theorem Decides.optional (hp : p.Decides env L) :
    (Parser.optional p).Decides env (perhaps L) := by
  intro c
  rcases hp c with hrefuses | ⟨w, r, a, hc, ha, hread⟩
  · exact Or.inr ⟨[], c.rest, none, rfl, Or.inl ⟨rfl, rfl⟩, hrefuses.optional⟩
  · exact Or.inr ⟨w, r, some a, hc, Or.inr ⟨a, ha, rfl⟩, settles_optional hread⟩

/-- Every repetition reads at least one token, so the loop ends. -/
theorem Decides.many (hp : p.Decides env L) (hL : ∀ {w a}, L w a → w ≠ []) :
    (Parser.many p).Decides env (Repeated L) := by
  suffices ∀ (n : ℕ) (c : TokenReader T), c.rest.length ≤ n → ∃ w r as, c.rest = w ++ r ∧
      Repeated L w as ∧ p.Repeats env c as (Cursor.next^[w.length] c) by
    intro c
    obtain ⟨w, r, as, hc, has, hrepeats⟩ := this _ c (Nat.le_refl _)
    exact Or.inr ⟨w, r, as, hc, has, hrepeats.settles_many⟩
  -- on the number of tokens that are left: each part takes some of them
  intro n
  induction n with
  | zero =>
    intro c hn
    have hc : c.rest = [] := List.length_eq_zero_iff.mp (Nat.le_zero.mp hn)
    refine ⟨[], [], [], hc, .nil, ?_⟩
    rcases hp c with hrefuses | ⟨w, r, a, hc', ha, -⟩
    · exact hrefuses.repeats
    · rw [hc] at hc'
      exact absurd (List.append_eq_nil_iff.mp hc'.symm).1 (hL ha)
  | succ n ih =>
    intro c hn
    rcases hp c with hrefuses | ⟨u, r, a, hc, ha, hread⟩
    · exact ⟨[], c.rest, [], rfl, .nil, hrefuses.repeats⟩
    · have hpos := List.length_pos_of_ne_nil (hL ha)
      have hlength : (Cursor.next^[u.length] c).rest.length ≤ n := by
        rw [hc, List.length_append] at hn
        rw [rest_of_passed hc]
        omega
      obtain ⟨v, r', as, hc', has, hrepeats⟩ := ih _ hlength
      rw [rest_of_passed hc] at hc'
      refine ⟨u ++ v, r', a :: as, ?_, .cons ha has, ?_⟩
      · rw [hc, hc', List.append_assoc]
      · rw [List.length_append, Nat.add_comm, Function.iterate_add_apply]
        exact .cons hread (position_ne_of_passed hc (hL ha)) hrepeats

/-- A loop reads a run of parts, if it reads each of them before the others and stops behind
them. -/
theorem repeats_of_repeated {as : List α} (h : Repeated L w as) (hc : c.rest = w ++ r)
    (hL : ∀ {w a}, L w a → w ≠ [])
    (hread : ∀ {d : TokenReader T} {u v a as}, d.rest = u ++ (v ++ r) → L u a → Repeated L v as →
      p.Reads env d u a)
    (hstop : ∀ {d : TokenReader T}, d.rest = r → p.Refuses env d) :
    p.Repeats env c as (Cursor.next^[w.length] c) := by
  induction h generalizing c with
  | nil => exact (hstop hc).repeats
  | cons ha has ih =>
    rw [List.append_assoc] at hc
    rw [List.length_append, Nat.add_comm, Function.iterate_add_apply]
    exact .cons (hread hc ha has) (position_ne_of_passed hc (hL ha)) (ih (rest_of_passed hc))

end Decides

/-! ## Interpreting readings -/

/-- Whether an expression reads whatever has a reading, unless a token follows that might belong to
it, and comes to nothing else. What has a reading begins with a token of a certain kind. -/
structure Interprets (env : Environment π ρ) (p : Parser π ρ α) (L : Readings T α)
    (start follow : T → Prop) : Prop where
  reads {c : TokenReader T} {w r : List T} {a : α} :
    c.rest = w ++ r → L w a → (∀ t ∈ r.head?, ¬follow t) → p.Reads env c w a
  decides : p.Decides env L
  start {w : List T} {a : α} : L w a → ∃ t u, w = t :: u ∧ start t

section Interprets

variable {L : Readings T α} {start follow start' follow' : T → Prop}

/-- What is known to follow or to begin may be said with less precision. -/
theorem Interprets.mono (h : p.Interprets env L start follow) (hstart : ∀ t, start t → start' t)
    (hfollow : ∀ t, follow t → follow' t) : p.Interprets env L start' follow' where
  reads hc ha hr := h.reads hc ha fun t ht hf => hr t ht (hfollow t hf)
  decides := h.decides
  start ha := by
    obtain ⟨t, u, rfl, ht⟩ := h.start ha
    exact ⟨t, u, rfl, hstart t ht⟩

/-- Readings may be replaced by equivalent ones. -/
theorem Interprets.congr {M : Readings T α} (h : p.Interprets env L start follow)
    (hLM : ∀ w a, L w a ↔ M w a) : p.Interprets env M start follow := by
  have heq : L = M := funext fun w => funext fun a => propext (hLM w a)
  rwa [← heq]

/-- What takes single tokens interprets them, whatever follows. -/
theorem ReadsTokens.interprets {meaning : T → α → Prop} (h : p.ReadsTokens env meaning) :
    p.Interprets env (single meaning) (fun t => ∃ a, meaning t a) fun _ => False where
  reads hc ha _ := by
    obtain ⟨t, rfl, ht⟩ := ha
    exact h.reads hc ht
  decides := h.decides
  start := start_of_single

end Interprets

/-! ## Layers -/

section Layers

open OperatorTable

variable {operand : Parser π ρ O} {E : Readings T O} {start follow : T → Prop}

section Infixes

variable {infixes : T → (O → O → O) → Prop} {marks : T → (O → O) → Prop}
  {operator : Parser π ρ (O → O → O)}

/-- An operator and the operand on its right. -/
theorem Interprets.reads_infix {w r : List T} {x : (O → O → O) × O}
    (hoperand : operand.Interprets env E start follow)
    (hoperator : operator.ReadsTokens env infixes) (hc : c.rest = w ++ r)
    (h : both Prod.mk (single infixes) E w x) (hr : ∀ t ∈ r.head?, ¬follow t) :
    (and operator operand).Reads env c w x := by
  obtain ⟨_, f, v, y, ⟨t, rfl, ht⟩, hy, rfl, rfl⟩ := h
  rw [List.append_assoc] at hc
  exact (hoperator.reads hc ht).zip _ (hoperand.reads (rest_of_passed (w := [t]) hc) hy hr)

/-- Operators that group from the left are interpreted as they group. -/
theorem interprets_leftLayer (hoperand : operand.Interprets env E start follow)
    (hoperator : operator.ReadsTokens env infixes) (hdisjoint : ∀ t f, infixes t f → ¬follow t) :
    (leftLayer operand operator).Interprets env (Grouped E infixes marks .left) start
      fun t => follow t ∨ ∃ f, infixes t f := by
  refine Interprets.congr ?_ fun w x => grouped_left_iff.symm
  have hpair {w : List T} {x : (O → O → O) × O} (h : both Prod.mk (single infixes) E w x) :
      ∃ t u, w = t :: u ∧ ∃ f, infixes t f := start_of_both start_of_single h
  constructor
  · rintro c w r x hc ⟨u, first, v, rest, hfirst, hrest, rfl, rfl⟩ hr
    have hbehind {v : List T} {fs} (h : Repeated (both Prod.mk (single infixes) E) v fs) :
        ∀ t ∈ (v ++ r).head?, ¬follow t := by
      refine h.head (fun ha => ?_) fun t ht hf => hr t ht (Or.inl hf)
      obtain ⟨t, w', rfl, f, ht⟩ := hpair ha
      exact ⟨t, w', rfl, hdisjoint t f ht⟩
    rw [List.append_assoc] at hc
    refine (hoperand.reads hc hfirst (hbehind hrest)).zip _ (Repeats.settles_many ?_)
    refine repeats_of_repeated hrest (rest_of_passed hc) (fun ha => ne_nil_of_start (hpair ha))
      (fun hd ha has => hoperand.reads_infix hoperator hd ha (hbehind has)) fun {d} hd => ?_
    refine Refuses.zip _ (hoperator.refuses fun t ht f hf => ?_)
    rw [hd] at ht
    exact hr t ht (Or.inr ⟨f, hf⟩)
  · exact hoperand.decides.zip _
      ((hoperator.decides.zip _ hoperand.decides).many fun ha => ne_nil_of_start (hpair ha))
  · exact fun hx => start_of_both hoperand.start hx

/-- Operators that group from the right are interpreted as they group. -/
theorem interprets_rightLayer (hoperand : operand.Interprets env E start follow)
    (hoperator : operator.ReadsTokens env infixes) (hdisjoint : ∀ t f, infixes t f → ¬follow t) :
    (rightLayer operand operator).Interprets env (Grouped E infixes marks .right) start
      fun t => follow t ∨ ∃ f, infixes t f := by
  refine Interprets.congr ?_ fun w x => grouped_right_iff.symm
  have hpair {w : List T} {x : O × (O → O → O)} (h : both Prod.mk E (single infixes) w x) :
      ∃ t u, w = t :: u ∧ start t := start_of_both hoperand.start h
  constructor
  · rintro c w r x hc ⟨u, rest, v, last, hrest, hlast, rfl, rfl⟩ hr
    have hr' : ∀ t ∈ r.head?, ¬follow t := fun t ht hf => hr t ht (Or.inl hf)
    rw [List.append_assoc] at hc
    -- pairs of an operand and an operator, and then the last operand
    refine Reads.zip _ (Repeats.settles_many ?_) (hoperand.reads (rest_of_passed hc) hlast hr')
    refine repeats_of_repeated hrest hc (fun ha => ne_nil_of_start (hpair ha)) ?_ fun {d} hd => ?_
    · rintro d _ w' _ _ hd ⟨u', y, _, f, hy, ⟨t, rfl, ht⟩, rfl, rfl⟩ -
      rw [List.append_assoc] at hd
      refine (hoperand.reads hd hy fun t' ht' => ?_).zip _ (hoperator.reads (rest_of_passed hd) ht)
      cases ht'
      exact hdisjoint t f ht
    · -- the last operand is there, but no operator behind it
      refine refuses_zip_of_settles _ (hoperand.reads hd hlast hr')
        (hoperator.refuses fun t ht f hf => ?_)
      rw [rest_of_passed hd] at ht
      exact hr t ht (Or.inr ⟨f, hf⟩)
  · exact ((hoperand.decides.zip _ hoperator.decides).many fun ha =>
      ne_nil_of_start (hpair ha)).zip _ hoperand.decides
  · rintro w x ⟨u, rest, v, last, hrest, hlast, rfl, -⟩
    cases hrest with
    | nil => exact hoperand.start hlast
    | cons ha _ =>
      obtain ⟨t, w', rfl, ht⟩ := hpair ha
      exact ⟨t, _, rfl, ht⟩

/-- An operator that does not group is interpreted between two operands. -/
theorem interprets_singleLayer (hoperand : operand.Interprets env E start follow)
    (hoperator : operator.ReadsTokens env infixes) (hdisjoint : ∀ t f, infixes t f → ¬follow t) :
    (singleLayer operand operator).Interprets env (Grouped E infixes marks .none) start
      fun t => follow t ∨ ∃ f, infixes t f := by
  refine Interprets.congr ?_ fun w x => grouped_none_iff.symm
  constructor
  · rintro c w r x hc ⟨u, left, v, rest, hleft, hrest, rfl, rfl⟩ hr
    have hr' : ∀ t ∈ r.head?, ¬follow t := fun t ht hf => hr t ht (Or.inl hf)
    rw [List.append_assoc] at hc
    rcases hrest with ⟨rfl, rfl⟩ | ⟨pair, hpair, rfl⟩
    · have hnothing : (optional (and operator operand)).Reads env (Cursor.next^[u.length] c) []
          none := by
        refine Refuses.optional (Refuses.zip _ (hoperator.refuses fun t ht f hf => ?_))
        rw [rest_of_passed hc] at ht
        exact hr t ht (Or.inr ⟨f, hf⟩)
      exact (hoperand.reads hc hleft hr').zip _ hnothing
    · have hbehind : ∀ t ∈ (v ++ r).head?, ¬follow t := by
        obtain ⟨t, v', rfl, f, ht⟩ := start_of_both start_of_single hpair
        intro t' ht'
        cases ht'
        exact hdisjoint t f ht
      exact (hoperand.reads hc hleft hbehind).zip _
        (settles_optional (hoperand.reads_infix hoperator (rest_of_passed hc) hpair hr'))
  · exact hoperand.decides.zip _ (hoperator.decides.zip _ hoperand.decides).optional
  · exact fun hx => start_of_both hoperand.start hx

end Infixes

section Marks

variable {infixes : T → (O → O → O) → Prop} {marks : T → (O → O) → Prop}
  {operator : Parser π ρ (O → O)}

/-- A run of operators is read up to a token that is none. -/
theorem repeats_marks {fs : List (O → O)} (hoperator : operator.ReadsTokens env marks)
    (h : Repeated (single marks) w fs) (hc : c.rest = w ++ r)
    (hr : ∀ t ∈ r.head?, ∀ f, ¬marks t f) :
    operator.Repeats env c fs (Cursor.next^[w.length] c) := by
  have hne {v : List T} {f : O → O} (h : single marks v f) : v ≠ [] :=
    ne_nil_of_start (start_of_single h)
  refine repeats_of_repeated h hc hne ?_ fun {d} hd => ?_
  · rintro d _ v f _ hd ⟨t, rfl, ht⟩ -
    exact hoperator.reads hd ht
  · refine hoperator.refuses fun t ht => ?_
    rw [hd] at ht
    exact hr t ht

/-- Operators in front of an operand are interpreted, the last one first. -/
theorem interprets_beforeLayer (hoperand : operand.Interprets env E start follow)
    (hoperator : operator.ReadsTokens env marks) (hdisjoint : ∀ t f, marks t f → ¬start t) :
    (beforeLayer operand operator).Interprets env (Grouped E infixes marks .before)
      (fun t => start t ∨ ∃ f, marks t f) follow := by
  refine Interprets.congr ?_ fun w x => grouped_before_iff.symm
  constructor
  · rintro c w r x hc ⟨u, applies, v, value, happlies, hvalue, rfl, rfl⟩ hr
    rw [List.append_assoc] at hc
    refine Reads.zip _ (Repeats.settles_many ?_) (hoperand.reads (rest_of_passed hc) hvalue hr)
    refine repeats_marks hoperator happlies hc fun t ht f hf => ?_
    obtain ⟨t', v', rfl, ht'⟩ := hoperand.start hvalue
    cases ht
    exact hdisjoint t f hf ht'
  · exact (hoperator.decides.many fun ha => ne_nil_of_start (start_of_single ha)).zip _
      hoperand.decides
  · rintro w x ⟨u, applies, v, value, happlies, hvalue, rfl, -⟩
    cases happlies with
    | nil =>
      obtain ⟨t, v', rfl, ht⟩ := hoperand.start hvalue
      exact ⟨t, v', rfl, Or.inl ht⟩
    | cons ha _ =>
      obtain ⟨t, rfl, ht⟩ := ha
      exact ⟨t, _, rfl, Or.inr ⟨_, ht⟩⟩

/-- Operators behind an operand are interpreted, the first one first. -/
theorem interprets_afterLayer (hoperand : operand.Interprets env E start follow)
    (hoperator : operator.ReadsTokens env marks) (hdisjoint : ∀ t f, marks t f → ¬follow t) :
    (afterLayer operand operator).Interprets env (Grouped E infixes marks .after) start
      fun t => follow t ∨ ∃ f, marks t f := by
  refine Interprets.congr ?_ fun w x => grouped_after_iff.symm
  constructor
  · rintro c w r x hc ⟨u, value, v, applies, hvalue, happlies, rfl, rfl⟩ hr
    have hbehind : ∀ t ∈ (v ++ r).head?, ¬follow t := by
      refine happlies.head (fun ha => ?_) fun t ht hf => hr t ht (Or.inl hf)
      obtain ⟨t, rfl, ht⟩ := ha
      exact ⟨t, [], rfl, hdisjoint t _ ht⟩
    rw [List.append_assoc] at hc
    refine (hoperand.reads hc hvalue hbehind).zip _ (Repeats.settles_many ?_)
    exact repeats_marks hoperator happlies (rest_of_passed hc) fun t ht f hf =>
      hr t ht (Or.inr ⟨f, hf⟩)
  · exact hoperand.decides.zip _
      (hoperator.decides.many fun ha => ne_nil_of_start (start_of_single ha))
  · exact fun hx => start_of_both hoperand.start hx

end Marks

end Layers

end Parser

end Parsing
