import Parsing.Proofs.Parser.Ahead

/-!
# What rules know

`Session.lookup` is all that a run learns from the memos, and this module says how it changes when a
rule is called and when it gets an outcome. Entries are found by the place of a cursor, its input
and its position; among the cursors of the opened inputs (`Inputs`) that is the cursor itself,
location included (`Inputs.eq_of_key_eq`). So what is remembered can be stated of cursors
(`Session.Known`).
-/

namespace Parsing

open Recognizer Cursor

/-! ## Opened inputs -/

/-- Where each opened input starts. -/
structure Inputs (C : Type) {T : outParam Type} [Cursor C T] where
  start : InputId → C
  input_start (i : InputId) : Cursor.input (start i) = i

namespace Inputs

variable {C T : Type} [Cursor C T] {I : Inputs C} {c d : C}

/-- Whether a cursor belongs to the opened inputs, that is, was reached from the start of its
own. -/
def Has (I : Inputs C) (c : C) : Prop :=
  After (I.start (Cursor.input c)) c

variable [Cursor.Lawful C]

omit [Cursor.Lawful C] in
/-- An opened input has its start. -/
theorem has_start (I : Inputs C) (i : InputId) : I.Has (I.start i) := by
  rw [Has, I.input_start]
  exact After.refl _

/-- What comes after a cursor belongs to the opened inputs with it. -/
theorem Has.after (hc : I.Has c) (h : After c d) : I.Has d := by
  rw [Has, h.input_eq]
  exact After.trans hc h

/-- What comes after a cursor is in the input of the cursor. -/
theorem key_fst_of_after (h : After c d) : (key d).1 = (key c).1 :=
  h.input_eq

/-- The place of a cursor tells which cursor it is. -/
theorem eq_of_key_eq (hc : I.Has c) (hd : I.Has d) (h : key c = key d) : c = d := by
  obtain ⟨hinput, hposition⟩ := Prod.mk.inj h
  rw [Has, hinput] at hc
  exact hc.eq_of_position_eq_position hd hposition

end Inputs

/-! ## Looking up -/

namespace Session

variable {C ρ : Type} {s t : Session C ρ} {r r' : RuleId} {key key' : MemoKey}
  {e : MemoEntry C ρ}

/-- A rule knows nothing of other inputs than the one it turned to last. -/
theorem lookup_eq (s : Session C ρ) (r : RuleId) (key : MemoKey) :
    s.lookup r key = if (s.memo r).input = some key.1 then (s.memo r).find? key else none := by
  unfold lookup Memo.enter
  split <;> rfl

/-- What a rule knows of a place it has an entry for, and it has turned to the input. -/
theorem lookup_eq_some_iff : s.lookup r key = some e ↔
    (s.memo r).input = some key.1 ∧ (s.memo r).find? key = some e := by
  rw [lookup_eq]
  split
  · exact (and_iff_right ‹_›).symm
  · exact iff_of_false (Option.some_ne_none e).symm fun h => ‹¬_› h.1

/-- What a rule knows depends on the memos of a session only. -/
theorem lookup_congr (h : s.memos = t.memos) : s.lookup r key = t.lookup r key := by
  unfold lookup memo
  rw [h]

/-- Setting the memo of one rule leaves those of others. -/
theorem memo_setMemo (s : Session C ρ) (r r' : RuleId) (m : Memo C ρ) :
    (s.setMemo r m).memo r' = if r' = r then m else s.memo r' := by
  unfold memo setMemo
  rw [Table.find?_insert]
  split <;> rfl

/-- A memo that turns to an input is about that input. -/
theorem input_enter (m : Memo C ρ) (i : InputId) : (m.enter i).input = some i := by
  unfold Memo.enter
  split
  · assumption
  · rfl

/-- A rule that is called has turned to the input of its call. -/
theorem input_memo_call (s : Session C ρ) (r : RuleId) (key : MemoKey) :
    ((s.call r key).2.memo r).input = some key.1 := by
  rw [call, memo_setMemo, if_pos rfl]
  split
  · exact input_enter _ _
  · exact input_enter _ _

/-- A call leaves an entry at its place, and those at other places as they are. -/
theorem find?_memo_call (s : Session C ρ) (r : RuleId) (key key' : MemoKey) :
    ((s.call r key).2.memo r).find? key' =
      if key' = key then some ((s.lookup r key).getD .pending)
      else ((s.memo r).enter key.1).find? key' := by
  rw [call, memo_setMemo, if_pos rfl]
  rcases hentry : s.lookup r key with _ | e
  · exact Table.find?_insert _ _ _ _
  · by_cases hk : key' = key
    · rw [if_pos hk, hk]
      exact hentry
    · rw [if_neg hk]
      rfl

/-- What is known once a rule was called: what was known before, except of other inputs, and that
the rule was called. -/
theorem lookup_call (s : Session C ρ) (r r' : RuleId) (key key' : MemoKey) :
    (s.call r key).2.lookup r' key' =
      if r' = r then
        if key' = key then some ((s.lookup r key).getD .pending)
        else if key'.1 = key.1 then s.lookup r key' else none
      else s.lookup r' key' := by
  by_cases hr : r' = r
  · subst hr
    rw [if_pos rfl, lookup_eq, input_memo_call, find?_memo_call]
    by_cases hk : key' = key
    · rw [hk, if_pos rfl, if_pos rfl, if_pos rfl]
    · rw [if_neg hk, if_neg hk]
      by_cases hi : key'.1 = key.1
      · rw [if_pos hi, if_pos (congrArg some hi.symm), lookup, hi]
      · rw [if_neg hi, if_neg fun h => hi (Option.some.inj h).symm]
  · rw [if_neg hr, lookup, call, memo_setMemo, if_neg hr]
    rfl

/-- What is known once a rule has got an outcome. -/
theorem lookup_resolveCall (s : Session C ρ) (r r' : RuleId) (key key' : MemoKey)
    (o : Outcome C ρ) :
    (s.resolveCall r key o).lookup r' key' =
      if r' = r ∧ key' = key then
        if (s.memo r).input = some key.1 then some (.resolved o) else none
      else s.lookup r' key' := by
  rw [lookup_eq, lookup_eq, resolveCall, memo_setMemo]
  by_cases hr : r' = r
  · subst hr
    rw [if_pos rfl]
    change (if (s.memo r').input = some key'.1 then
      ((s.memo r').entries.insert key (.resolved o)).find? key' else none) = _
    rw [Table.find?_insert]
    by_cases hk : key' = key
    · simp only [hk, true_and, if_true]
    · simp only [hk, and_false, if_false]
      rfl
  · simp only [hr, false_and, if_false]

/-- An entry that is there after a call is the one that was made or was there before. -/
theorem eq_or_lookup_of_call (h : (s.call r key).2.lookup r' key' = some e) :
    (r' = r ∧ key' = key ∧ e = (s.lookup r key).getD .pending) ∨
      (¬(r' = r ∧ key' = key) ∧ s.lookup r' key' = some e) := by
  rw [lookup_call] at h
  by_cases hr : r' = r
  · subst hr
    rw [if_pos rfl] at h
    by_cases hk : key' = key
    · rw [if_pos hk] at h
      exact Or.inl ⟨rfl, hk, (Option.some.inj h).symm⟩
    · rw [if_neg hk] at h
      split at h
      · exact Or.inr ⟨fun h' => hk h'.2, h⟩
      · cases h
  · rw [if_neg hr] at h
    exact Or.inr ⟨fun h' => hr h'.1, h⟩

/-- When a call is resolved, its outcome is known, and what was known elsewhere. -/
theorem eq_or_lookup_of_resolveCall {o : Outcome C ρ}
    (h : (s.resolveCall r key o).lookup r' key' = some e) :
    (r' = r ∧ key' = key ∧ e = .resolved o) ∨
      (¬(r' = r ∧ key' = key) ∧ s.lookup r' key' = some e) := by
  rw [lookup_resolveCall] at h
  by_cases hrk : r' = r ∧ key' = key
  · rw [if_pos hrk] at h
    split at h
    · exact Or.inl ⟨hrk.1, hrk.2, (Option.some.inj h).symm⟩
    · cases h
  · rw [if_neg hrk] at h
    exact Or.inr ⟨hrk, h⟩

/-- A call forgets nothing of its own input. -/
theorem isSome_lookup_call (hi : key'.1 = key.1) (h : (s.lookup r' key').isSome) :
    ((s.call r key).2.lookup r' key').isSome := by
  rw [lookup_call]
  by_cases hr : r' = r
  · subst hr
    rw [if_pos rfl, if_pos hi]
    split
    · rfl
    · exact h
  · rw [if_neg hr]
    exact h

/-- A rule knows of the place where it is called. -/
theorem isSome_lookup_call_self (s : Session C ρ) (r : RuleId) (key : MemoKey) :
    ((s.call r key).2.lookup r key).isSome := by
  rw [lookup_call, if_pos rfl, if_pos rfl]
  rfl

/-- Resolving a call forgets no place. -/
theorem isSome_lookup_resolveCall {o : Outcome C ρ} (h : (s.lookup r' key').isSome) :
    ((s.resolveCall r key o).lookup r' key').isSome := by
  rw [lookup_resolveCall]
  by_cases hrk : r' = r ∧ key' = key
  · rw [lookup_eq] at h
    rw [if_pos hrk]
    split
    · rfl
    · rw [hrk.1, hrk.2, if_neg ‹_›] at h
      exact h
  · rw [if_neg hrk]
    exact h

/-- Turning to an input and forgetting all entries only forget. -/
theorem lookup_of_clear (h : (s.setMemo r (s.memo r).clear).lookup r' key' = some e) :
    s.lookup r' key' = some e := by
  rw [lookup_eq, memo_setMemo] at h
  by_cases hr : r' = r
  · rw [if_pos hr] at h
    split at h
    · cases h
    · cases h
  · rw [if_neg hr, ← lookup_eq] at h
    exact h

/-! ### Of cursors -/

section Known

variable {T : Type} [Cursor C T] {I : Inputs C} {c : C}
  {res : RuleId → C → Outcome C ρ → Prop} {pend pend' : RuleId → C → Prop}

/-- Whether everything that rules know of cursors satisfies a condition, one for outcomes and one
for being at work. -/
structure Known (I : Inputs C) (res : RuleId → C → Outcome C ρ → Prop) (pend : RuleId → C → Prop)
    (s : Session C ρ) : Prop where
  resolved {c : C} {r : RuleId} {o : Outcome C ρ} :
    I.Has c → s.lookup r (Cursor.key c) = some (.resolved o) → res r c o
  pending {c : C} {r : RuleId} : I.Has c → s.lookup r (Cursor.key c) = some .pending → pend r c

namespace Known

/-- At first nothing is known. -/
theorem empty : ({} : Session C ρ).Known I res pend :=
  ⟨fun _ h => (nomatch h), fun _ h => (nomatch h)⟩

/-- Rules that know less know nothing else. -/
theorem of_lookup (h : s.Known I res pend)
    (hst : ∀ {r key e}, t.lookup r key = some e → s.lookup r key = some e) :
    t.Known I res pend :=
  ⟨fun hc ht => h.resolved hc (hst ht), fun hc ht => h.pending hc (hst ht)⟩

/-- What is known depends on the memos of a session only. -/
theorem of_memos (h : s.Known I res pend) (hst : t.memos = s.memos) : t.Known I res pend :=
  h.of_lookup fun ht => (lookup_congr hst).symm.trans ht

/-- A call of a place that is known adds nothing. -/
theorem call_of_lookup (h : s.Known I res pend) (he : s.lookup r key = some e) :
    (s.call r key).2.Known I res pend := by
  refine h.of_lookup fun {r' key' e'} ht => ?_
  rcases eq_or_lookup_of_call ht with ⟨rfl, rfl, rfl⟩ | ⟨-, hs⟩
  · rw [he, Option.getD_some]
  · exact hs

variable [Cursor.Lawful C]

/-- Calling a rule puts it to work. -/
theorem call (h : s.Known I res pend) (hc : I.Has c) (hnone : s.lookup r (Cursor.key c) = none) :
    (s.call r (Cursor.key c)).2.Known I res fun r' d => pend r' d ∨ (r' = r ∧ d = c) := by
  constructor
  · intro d r' o hd ht
    rcases eq_or_lookup_of_call ht with ⟨-, -, ho⟩ | ⟨-, hs⟩
    · rw [hnone] at ho
      cases ho
    · exact h.resolved hd hs
  · intro d r' hd ht
    rcases eq_or_lookup_of_call ht with ⟨rfl, hk, -⟩ | ⟨-, hs⟩
    · exact Or.inr ⟨rfl, Inputs.eq_of_key_eq hd hc hk⟩
    · exact Or.inl (h.pending hd hs)

/-- A rule that gets an outcome is no longer at work. -/
theorem resolveCall {o : Outcome C ρ} (h : s.Known I res pend') (hc : I.Has c) (ho : res r c o)
    (hpend : ∀ r' d, pend' r' d → ¬(r' = r ∧ d = c) → pend r' d) :
    (s.resolveCall r (Cursor.key c) o).Known I res pend := by
  constructor
  · intro d r' o' hd ht
    rcases eq_or_lookup_of_resolveCall ht with ⟨rfl, hk, ho'⟩ | ⟨-, hs⟩
    · cases ho'
      rwa [Inputs.eq_of_key_eq hd hc hk]
    · exact h.resolved hd hs
  · intro d r' hd ht
    rcases eq_or_lookup_of_resolveCall ht with ⟨-, -, ho'⟩ | ⟨hne, hs⟩
    · cases ho'
    · refine hpend r' d (h.pending hd hs) ?_
      rintro ⟨rfl, rfl⟩
      exact hne ⟨rfl, rfl⟩

end Known

end Known

end Session

/-! ## Running a rule that keeps a memo -/

namespace Recognizer

variable {C T ρ : Type} [Cursor C T] {r : RuleId} {c : C} {s : Session C ρ}
  (body : Recognizer (Effect (Session C ρ)) C ρ)

/-- What is remembered is the answer to a call. -/
theorem run_memoized_of_resolved {o : Outcome C ρ}
    (h : s.lookup r (Cursor.key c) = some (.resolved o)) :
    (memoized r body c).run s = (.ok o, (s.call r (Cursor.key c)).2) := by
  rw [memoized, Effect.run_bind, Effect.run_update]
  simp only [Session.call, h]
  rfl

/-- The error of a rule that calls itself where it is still at work. -/
def leftRecursion (c : C) : NoSuccess :=
  .error "left recursion detected" (Cursor.location c)

/-- Where a rule is marked as at work, its call is answered with left recursion. -/
theorem run_memoized_of_pending (h : s.lookup r (Cursor.key c) = some .pending) :
    (memoized r body c).run s =
      (.ok (.noSuccess (leftRecursion c)), (s.call r (Cursor.key c)).2) := by
  rw [memoized, Effect.run_bind, Effect.run_update]
  simp only [Session.call, h]
  rfl

/-- Where nothing is known, a rule runs its parser and remembers the outcome, if there is one. -/
theorem run_memoized_of_none (h : s.lookup r (Cursor.key c) = none) :
    (memoized r body c).run s =
      match (body c).run (s.call r (Cursor.key c)).2 with
      | (.ok o, s') => (.ok o, s'.resolveCall r (Cursor.key c) o)
      | (.error halt, s') => (.error halt, s') := by
  rw [memoized, Effect.run_bind, Effect.run_update]
  have hcall : (s.call r (Cursor.key c)).1 = none := h
  simp only [hcall]
  rw [Effect.run_bind]
  rcases (body c).run (s.call r (Cursor.key c)).2 with ⟨_ | o, s'⟩ <;> rfl

variable {body} {o : Outcome C ρ} {s' : Session C ρ}

/-- Where an outcome comes from: it was remembered, the rule was at work, or its parser was run. -/
theorem memoized_cases (h : (memoized r body c).run s = (.ok o, s')) :
    (s.lookup r (Cursor.key c) = some (.resolved o) ∧ s' = (s.call r (Cursor.key c)).2) ∨
      (s.lookup r (Cursor.key c) = some .pending ∧ o = .noSuccess (leftRecursion c) ∧
        s' = (s.call r (Cursor.key c)).2) ∨
      (s.lookup r (Cursor.key c) = none ∧ ∃ s₁,
        (body c).run (s.call r (Cursor.key c)).2 = (.ok o, s₁) ∧
          s' = s₁.resolveCall r (Cursor.key c) o) := by
  rcases hentry : s.lookup r (Cursor.key c) with _ | _ | o'
  · rw [run_memoized_of_none body hentry] at h
    rcases hbody : (body c).run (s.call r (Cursor.key c)).2 with ⟨_ | o', s₁⟩
    all_goals rw [hbody] at h
    · cases h
    · cases h
      exact Or.inr (Or.inr ⟨rfl, s₁, rfl, rfl⟩)
  · rw [run_memoized_of_pending body hentry] at h
    cases h
    exact Or.inr (Or.inl ⟨rfl, rfl, rfl⟩)
  · rw [run_memoized_of_resolved body hentry] at h
    cases h
    exact Or.inl ⟨rfl, rfl⟩

/-- A rule keeps what is known if its parser does so while the rule is at work. What it comes to is
an outcome that may be remembered, or the error of a rule that was at work already. -/
theorem known_of_run_memoized [Cursor.Lawful C] {I : Inputs C}
    {res : RuleId → C → Outcome C ρ → Prop} {pend : RuleId → C → Prop}
    (hs : s.Known I res pend) (hc : I.Has c) (h : (memoized r body c).run s = (.ok o, s'))
    (hbody : ∀ s₁, (s.call r (Cursor.key c)).2.Known I res
        (fun r' d => pend r' d ∨ (r' = r ∧ d = c)) →
      (body c).run (s.call r (Cursor.key c)).2 = (.ok o, s₁) →
        s₁.Known I res (fun r' d => pend r' d ∨ (r' = r ∧ d = c)) ∧ res r c o) :
    s'.Known I res pend ∧ (res r c o ∨ (pend r c ∧ o = .noSuccess (leftRecursion c))) := by
  rcases memoized_cases h with ⟨hentry, rfl⟩ | ⟨hentry, rfl, rfl⟩ | ⟨hentry, s₁, hrun, rfl⟩
  · exact ⟨hs.call_of_lookup hentry, Or.inl (hs.resolved hc hentry)⟩
  · exact ⟨hs.call_of_lookup hentry, Or.inr ⟨hs.pending hc hentry, rfl⟩⟩
  · obtain ⟨hknown, ho⟩ := hbody s₁ (hs.call hc hentry) hrun
    refine ⟨hknown.resolveCall hc ho ?_, Or.inl ho⟩
    rintro r' d (hP | hnew) hne
    · exact hP
    · exact absurd hnew hne

end Recognizer

namespace Parser

variable {π : Type → Type} {C T ρ : Type} [Cursor C T] [Primitive π] [Primitive.Runs π C]
  {env : Environment π ρ} {r : Rule} {build : BuildId} {body : Parser π ρ ρ}

/-- The dialogue of a rule is about its parser only. -/
theorem run_plan_rule {packrat : Bool} (h : env.rule r.id = .bound packrat build body) (fuel : Nat)
    (ctx : Context π ρ) (c : C) :
    ((rule r).plan env fuel ctx c).run (answer env fuel ctx.build) =
      body.eval env fuel ⟨[], build⟩ c := by
  rw [run_plan, step_rule, h]
  rfl

/-- A rule with a parser and a memo is that parser behind the memo. -/
theorem eval_rule_of_bound (h : env.rule r.id = .bound true build body) (fuel : Nat)
    (ctx : Context π ρ) :
    ((rule r).eval env (fuel + 1) ctx : Recognizer (Effect (Session C ρ)) C ρ) =
      memoized r.id (body.eval env fuel ⟨[], build⟩) := by
  rw [eval_succ, attend_rule, h]
  exact congrArg (memoized r.id) (funext (run_plan_rule h fuel ctx))

/-- A rule comes to an outcome if it knows something, or if its parser comes to one. -/
theorem exists_run_rule_of_bound (h : env.rule r.id = .bound true build body) (ctx : Context π ρ)
    (c : C) (s : Session C ρ) (hbody : s.lookup r.id (Cursor.key c) = none → ∃ n o s',
      (body.eval env n ⟨[], build⟩ c).run (s.call r.id (Cursor.key c)).2 = (.ok o, s')) :
    ∃ n o s', ((rule r).eval env n ctx c).run s = (.ok o, s') := by
  rcases hentry : s.lookup r.id (key c) with _ | _ | o
  · obtain ⟨n, o, s', hrun⟩ := hbody hentry
    refine ⟨n + 1, o, s'.resolveCall r.id (key c) o, ?_⟩
    rw [eval_rule_of_bound h, run_memoized_of_none _ hentry, hrun]
  · refine ⟨1, .noSuccess (leftRecursion c), (s.call r.id (key c)).2, ?_⟩
    rw [eval_rule_of_bound h, run_memoized_of_pending _ hentry]
  · refine ⟨1, o, (s.call r.id (key c)).2, ?_⟩
    rw [eval_rule_of_bound h, run_memoized_of_resolved _ hentry]

end Parser

end Parsing
