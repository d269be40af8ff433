import Parsing.Cursor.Text
import Parsing.Proofs.Parser.Dialogue

/-!
# Errors end a parse

`Parser.watch` runs an expression as `Parser.eval` does and writes down every run of an expression
inside of it, when it is called and what it returns. Watching changes nothing (`erases_watch`). Once
a run in the log has returned an error, the log goes on with returns of the same error only, and the
error is the outcome of the whole run (`run_watch_error`): it is not backtracked over, no other
expression is run, and neither its text nor its location is changed.

The reason is that a dialogue that is answered with an error ends with it (`Dialogue.Faithful`).
That is a matter of single steps; the rest is an induction on the depth of the run.
-/

namespace Parsing

open Recognizer

/-! ## Dialogues -/

namespace Dialogue

variable {π : Type → Type} {ρ C α : Type}

/-- Whether the answer to a question, if it is an error, is the end of the dialogue. -/
inductive Faithful : Dialogue π ρ C (Outcome C α) → Prop where
  | done (o : Outcome C α) : Faithful (.done o)
  | stop (h : Halt) : Faithful (.stop h)
  | ask {β : Type} {scope : Scope π ρ} {origin : Origin} {q : Parser π ρ β} {c : C}
    {next : Outcome C β → Dialogue π ρ C (Outcome C α)}
    (error : ∀ e : NoSuccess, e.isFailure = false →
      next (.noSuccess e) = .done (.noSuccess e))
    (faithful : ∀ o, Faithful (next o)) : Faithful (.ask scope origin q c next)

/-- Branching after a faithful dialogue is faithful: a failure may be followed by anything, but an
error is passed on. -/
theorem Faithful.branch {β : Type} {p : Recognizer (Dialogue π ρ C) C α} {c : C}
    {next : α → Recognizer (Dialogue π ρ C) C β}
    {otherwise : NoSuccess → Recognizer (Dialogue π ρ C) C β} (hp : Faithful (p c))
    (hnext : ∀ a d, Faithful (next a d))
    (hotherwise : ∀ r, r.isFailure = true → Faithful (otherwise r c)) :
    Faithful (Recognizer.branch p next otherwise c) := by
  unfold Recognizer.branch
  generalize p c = x at hp
  induction hp with
  | done o =>
    cases o with
    | success a d => exact hnext a d
    | noSuccess r =>
      change Faithful (if r.isFailure then otherwise r c else Dialogue.done (.noSuccess r))
      split
      · exact hotherwise r ‹_›
      · exact .done _
  | stop h => exact .stop h
  | ask error _ ih =>
    refine .ask (fun e he => ?_) ih
    rw [error e he]
    exact if_neg (by simp [he])

/-- Faithfulness, as a relation that looks at one of its sides only. -/
def faithfulness {T : Type} [Cursor C T] : Simulation (Dialogue π ρ C) (Dialogue π ρ C)
    (.identity fun _ : C => True) where
  rel x _ := Faithful x
  success _ _ _ _ := .done _
  failure _ _ := .done _
  branch hp hnext hotherwise := hp.branch (fun a d => hnext a d d ⟨rfl, trivial⟩)
    fun r hr => hotherwise r r (Correspondence.reason_identity.mpr rfl) hr

end Dialogue

section

variable {π : Type → Type} {C T ρ σ α : Type} [Cursor C T] [Primitive π] [Primitive.Runs π C]

/-- An expression that gets an error for an answer ends with it. -/
theorem Parser.faithful_plan (env : Environment π ρ) (fuel : Nat) (ctx : Context π ρ)
    (p : Parser π ρ α) (c : C) : (p.plan env fuel ctx c).Faithful := by
  suffices Dialogue.faithfulness.Related (p.plan env fuel ctx) (p.plan env fuel ctx) from
    this c c ⟨rfl, trivial⟩
  refine Dialogue.faithfulness.related_step_of_ask p ?_ ?_ ?_ fun h => .stop h
  · exact fun _ _ _ _ _ _ => .ask (fun _ _ => rfl) .done
  · intro β q c d _
    change (ofExcept (Primitive.Runs.parse q c) : Dialogue π ρ C _).Faithful
    cases Primitive.Runs.parse q c with
    | ok o => exact .done o
    | error h => exact .stop h
  · exact fun _ _ _ _ => .done _

end

/-! ## Watching a run -/

/-- What is seen of a run. -/
inductive Event (C : Type) where
  /-- An expression with this description is run at a cursor. -/
  | called (description : String) (c : C)
  /-- The run that was called last, of those that have not returned yet, returns. -/
  | returned (reason : Option NoSuccess)

/-- What was seen so far, in order. -/
abbrev Log (C : Type) := List (Event C)

/-- A state may have something added to it. -/
instance {σ τ : Type} : Stateful σ (Effect (σ × τ)) :=
  ⟨fun f => ⟨fun s => (.ok (f s.1).1, (f s.1).2, s.2)⟩⟩

/-- Puts events around a run into a log. -/
def noted {σ C α : Type} (before : Event C) (after : α → Event C) (x : Effect (σ × Log C) α) :
    Effect (σ × Log C) α :=
  ⟨fun (s, log) =>
    match x.run (s, log ++ [before]) with
    | (.ok a, s, log) => (.ok a, s, log ++ [after a])
    | (.error h, s, log) => (.error h, s, log)⟩

/-- The event before a run is logged in any case, and the one after it if there is a value. -/
theorem run_noted {σ C α : Type} (before : Event C) (after : α → Event C)
    (x : Effect (σ × Log C) α) (s : σ) (log : Log C) :
    (noted before after x).run (s, log) =
      match x.run (s, log ++ [before]) with
      | (.ok a, s, log) => (.ok a, s, log ++ [after a])
      | (.error h, s, log) => (.error h, s, log) := rfl

/-- Why there is no success, if there is none. -/
def Outcome.reason? {C α : Type} : Outcome C α → Option NoSuccess
  | .success _ _ => none
  | .noSuccess reason => some reason

namespace Parser

variable {π : Type → Type} {C T ρ σ α : Type} [Cursor C T] [Primitive π] [Primitive.Runs π C]

/-- Runs an expression as `eval` does, and keeps a log of the runs inside of it. -/
def watch (env : Environment π ρ) : {α : Type} → (fuel : Nat) → Context π ρ → Parser π ρ α →
    Recognizer (Effect (Session C ρ × Log C)) C α
  | _, 0, _, _ => fun _ => halt .outOfFuel
  | _, n + 1, ctx, p =>
    p.attend env <| p.step env n
      (fun scope origin q c => do
        let build ← update fun s : Session C ρ => s.enter ctx.build origin
        noted (.called q.describe c) (fun outcome => .returned outcome.reason?)
          (q.watch env n { scope, build } c))
      ctx

end Parser

/-! ### Watching changes nothing -/

/-- Whether a run does what another one does, apart from what is added to its state. -/
def Erases {σ τ α : Type} (x : Effect (σ × τ) α) (y : Effect σ α) : Prop :=
  ∀ s t, ((x.run (s, t)).1, (x.run (s, t)).2.1) = y.run s

namespace Erases

variable {σ τ α β : Type}

/-- A value may be returned with or without a log. -/
theorem pure (a : α) : Erases (Pure.pure a : Effect (σ × τ) α) (Pure.pure a) :=
  fun _ _ => rfl

/-- The state may be changed with or without a log. -/
theorem update (f : σ → α × σ) : Erases (Parsing.update f : Effect (σ × τ) α) (Parsing.update f) :=
  fun _ _ => rfl

/-- Runs in sequence do the same with or without a log. -/
theorem bind {x : Effect (σ × τ) α} {y : Effect σ α} {f : α → Effect (σ × τ) β}
    {g : α → Effect σ β} (hxy : Erases x y) (hfg : ∀ a, Erases (f a) (g a)) :
    Erases (x >>= f) (y >>= g) := by
  intro s t
  have h := hxy s t
  rw [Effect.run_bind, Effect.run_bind, ← h]
  rcases x.run (s, t) with ⟨_ | a, s', t'⟩
  · rfl
  · exact hfg a s' t'

/-- Events may be logged. -/
theorem noted {C : Type} {x : Effect (σ × Log C) α} {y : Effect σ α} (hxy : Erases x y)
    (before : Event C) (after : α → Event C) : Erases (Parsing.noted before after x) y := by
  intro s log
  rw [← hxy s (log ++ [before]), run_noted]
  rcases x.run (s, log ++ [before]) with ⟨_ | a, s', log'⟩ <;> rfl

variable {π : Type → Type} {C T ρ : Type}

/-- Dialogues do the same with or without a log, if the answers do. -/
theorem run {answer : {β : Type} → Scope π ρ → Origin → Parser π ρ β →
      Recognizer (Effect (σ × τ)) C β}
    {answer' : {β : Type} → Scope π ρ → Origin → Parser π ρ β → Recognizer (Effect σ) C β}
    (h : ∀ {β : Type} scope origin (q : Parser π ρ β) c,
      Erases (answer scope origin q c) (answer' scope origin q c))
    (x : Dialogue π ρ C α) : Erases (x.run answer) (x.run answer') := by
  induction x with
  | done a => exact .pure a
  | stop h => exact fun _ _ => rfl
  | ask scope origin q c next ih => exact (h scope origin q c).bind ih

/-- The books are kept with or without a log. -/
theorem attend [Cursor C T] {env : Environment π ρ} (p : Parser π ρ α)
    {q : Recognizer (Effect (Session C ρ × τ)) C α} {q' : Recognizer (Effect (Session C ρ)) C α}
    (h : ∀ c, Erases (q c) (q' c)) (c : C) : Erases (p.attend env q c) (p.attend env q' c) := by
  induction p using Parser.books with
  | none p hp =>
    rw [Parser.attend_eq_self hp, Parser.attend_eq_self hp]
    exact h c
  | tally name p =>
    rw [Parser.attend_tally, Parser.attend_tally]
    refine (h c).bind fun o => ?_
    cases o with
    | success a rest => exact (Erases.update _).bind fun _ => .pure _
    | noSuccess r => exact .pure _
  | rule r =>
    -- the memos are in the state that both sides have
    rw [Parser.attend_rule, Parser.attend_rule]
    split
    · refine (Erases.update _).bind fun entry => ?_
      rcases entry with _ | _ | outcome
      · exact (h c).bind fun o => (Erases.update _).bind fun _ => .pure o
      · exact .pure _
      · exact .pure outcome
    · exact h c

end Erases

/-- Watching a run changes nothing. -/
theorem erases_watch {π : Type → Type} {C T ρ α : Type} [Cursor C T] [Primitive π]
    [Primitive.Runs π C] (env : Environment π ρ) (fuel : Nat) (ctx : Context π ρ)
    (p : Parser π ρ α) (c : C) : Erases (p.watch env fuel ctx c) (p.eval env fuel ctx c) := by
  induction fuel generalizing α ctx c with
  | zero => exact fun _ _ => rfl
  | succ n ih =>
    refine Erases.attend p (fun d => ?_) c
    rw [← Parser.run_plan, ← Parser.run_plan]
    exact Erases.run (fun scope origin q d =>
      (Erases.update _).bind fun build => (ih _ q d).noted _ _) _

/-! ### What follows an error -/

/-- Whether no run in a log has returned an error. -/
def Quiet {C : Type} (log : Log C) : Prop :=
  ∀ e, .returned (some e) ∈ log → e.isFailure = true

/-- Whether the first return of an error in a log is followed by returns of it alone, and the error
is what a run results in. -/
inductive Sealed {C α : Type} (result : Except Halt (Outcome C α)) : Log C → Prop where
  | quiet {log : Log C} (h : Quiet log) : Sealed result log
  | error {log : Log C} (h : Quiet log) {e : NoSuccess} (he : e.isFailure = false) (n : Nat)
    (hresult : result = .ok (.noSuccess e)) :
    Sealed result (log ++ List.replicate n (.returned (some e)))

namespace Quiet

variable {C : Type} {log more : Log C}

/-- Nothing was seen. -/
theorem nil : Quiet ([] : Log C) := by
  intro e h
  cases h

/-- Quiet logs may follow one another. -/
theorem append (h : Quiet log) (hmore : Quiet more) : Quiet (log ++ more) := by
  intro e he
  rcases List.mem_append.mp he with he | he
  · exact h e he
  · exact hmore e he

/-- A call is no return. -/
theorem called (description : String) (c : C) : Quiet [.called description c] := by
  intro e he
  cases List.mem_singleton.mp he

end Quiet

namespace Sealed

variable {C α β : Type} {result : Except Halt (Outcome C α)} {result' : Except Halt (Outcome C β)}
  {log more : Log C}

/-- What is sealed may come behind what is quiet. -/
theorem append (h : Quiet log) (hmore : Sealed result more) : Sealed result (log ++ more) := by
  cases hmore with
  | quiet hmore => exact .quiet (h.append hmore)
  | error hmore he n hresult =>
    rw [← List.append_assoc]
    exact .error (h.append hmore) he n hresult

/-- Where the result is no error, no run has returned one. -/
theorem quiet_of_result (h : Sealed result log)
    (hresult : ∀ e, result = .ok (.noSuccess e) → e.isFailure = true) : Quiet log := by
  cases h with
  | quiet h => exact h
  | error _ he _ heq => exact absurd (hresult _ heq) (by simp [he])

/-- A seal depends on the error in the result only. -/
theorem imp (h : Sealed result log)
    (hresult : ∀ e, result = .ok (.noSuccess e) → result' = .ok (.noSuccess e)) :
    Sealed result' log := by
  cases h with
  | quiet h => exact .quiet h
  | error h he n heq => exact .error h he n (hresult _ heq)

/-- A log that an outcome seals is still sealed by it when its return is put behind. -/
theorem returned {o : Outcome C α} (h : Sealed (.ok o) log) :
    Sealed (.ok o) (log ++ [.returned o.reason?]) := by
  by_cases ho : ∃ e, o = .noSuccess e ∧ e.isFailure = false
  · obtain ⟨e, rfl, he⟩ := ho
    cases h with
    | quiet h => exact .error h he 1 rfl
    | error h he n heq =>
      cases heq
      rw [List.append_assoc, Outcome.reason?, ← List.replicate_succ']
      exact .error h he (n + 1) rfl
  · have hfail : ∀ e, o = .noSuccess e → e.isFailure = true := by
      intro e heq
      by_cases he : e.isFailure = true
      · exact he
      · exact absurd ⟨e, heq, Bool.eq_false_iff.mpr he⟩ ho
    refine .quiet ((h.quiet_of_result fun e heq => hfail e (Except.ok.inj heq)).append ?_)
    intro e he
    cases o with
    | success a d => cases List.mem_singleton.mp he
    | noSuccess r =>
      cases List.mem_singleton.mp he
      exact hfail _ rfl

/-- What a sealed log has after an error. -/
theorem of_error (h : Sealed result log) {before after : Log C} {e : NoSuccess}
    (he : e.isFailure = false) (hlog : log = before ++ .returned (some e) :: after) :
    (∀ event ∈ after, event = .returned (some e)) ∧ result = .ok (.noSuccess e) := by
  cases h with
  | quiet h =>
    have hmem : .returned (some e) ∈ log := by
      rw [hlog]
      exact List.mem_append_right _ List.mem_cons_self
    exact absurd (h e hmem) (by simp [he])
  | @error quiet h e' he' n hresult =>
    -- the error stands behind the quiet part, where all events are the same
    have hrest : ∃ k, .returned (some e) :: after = List.replicate k (.returned (some e')) := by
      rcases List.append_eq_append_iff.mp hlog with ⟨a, rfl, hn⟩ | ⟨a, rfl, ha⟩
      · have hsub : ∀ event ∈ Event.returned (some e) :: after, event = .returned (some e') := by
          intro event hevent
          refine List.eq_of_mem_replicate (n := n) ?_
          rw [hn]
          exact List.mem_append_right _ hevent
        exact ⟨_, List.eq_replicate_of_mem hsub⟩
      · cases a with
        | nil => exact ⟨n, ha⟩
        | cons event a =>
          cases ha
          have hmem : Event.returned (some e) ∈ before ++ .returned (some e) :: a :=
            List.mem_append_right _ List.mem_cons_self
          exact absurd (h e hmem) (by simp [he])
    obtain ⟨k, hk⟩ := hrest
    have hall : ∀ event ∈ Event.returned (some e) :: after, event = .returned (some e') := by
      rw [hk]
      exact fun event => List.eq_of_mem_replicate
    have heq := hall _ List.mem_cons_self
    cases heq
    exact ⟨fun event hevent => hall event (List.mem_cons_of_mem _ hevent), hresult⟩

end Sealed

/-- Whether what a run adds to the log is sealed by its result. -/
def Seals {σ C α : Type} (x : Effect (σ × Log C) (Outcome C α)) : Prop :=
  ∀ s log, ∃ more, (x.run (s, log)).2.2 = log ++ more ∧ Sealed (x.run (s, log)).1 more

namespace Seals

variable {σ C α β : Type}

/-- A value is returned and nothing is logged. -/
theorem pure (o : Outcome C α) : Seals (Pure.pure o : Effect (σ × Log C) (Outcome C α)) :=
  fun _ log => ⟨[], (List.append_nil log).symm, .quiet .nil⟩

/-- A run may stop without a log. -/
theorem halt (h : Halt) : Seals (Parsing.halt h : Effect (σ × Log C) (Outcome C α)) :=
  fun _ log => ⟨[], (List.append_nil log).symm, .quiet .nil⟩

/-- A change of the state logs nothing. -/
theorem update_bind {γ : Type} {f : σ → γ × σ} {g : γ → Effect (σ × Log C) (Outcome C α)}
    (h : ∀ a, Seals (g a)) : Seals (update f >>= g) :=
  fun s log => h (f s).1 (f s).2 log

/-- Going on with what gives back errors as they are. -/
theorem bind {x : Effect (σ × Log C) (Outcome C α)}
    {f : Outcome C α → Effect (σ × Log C) (Outcome C β)} (hx : Seals x) (hf : ∀ o, Seals (f o))
    (herror : ∀ e : NoSuccess, e.isFailure = false → ∀ s log, ∃ s',
      (f (.noSuccess e)).run (s, log) = (.ok (.noSuccess e), s', log)) : Seals (x >>= f) := by
  intro s log
  obtain ⟨more, hlog, hsealed⟩ := hx s log
  rw [Effect.run_bind]
  rcases hrun : x.run (s, log) with ⟨h | o, s', log'⟩
  all_goals
    rw [hrun] at hlog hsealed
    subst hlog
  · exact ⟨more, rfl, hsealed.imp nofun⟩
  · by_cases ho : ∃ e, o = .noSuccess e ∧ e.isFailure = false
    · -- `f` gives the error back and adds nothing to the log
      obtain ⟨e, rfl, he⟩ := ho
      obtain ⟨s'', hs⟩ := herror e he s' (log ++ more)
      refine ⟨more, congrArg (·.2.2) hs, hsealed.imp fun e' he' => ?_⟩
      cases he'
      exact congrArg Prod.fst hs
    · -- without an error so far, the log of `f` may go on as it likes
      have hquiet : Quiet more := by
        refine hsealed.quiet_of_result fun e heq => ?_
        cases heq
        by_cases he : e.isFailure = true
        · exact he
        · exact absurd ⟨e, rfl, Bool.eq_false_iff.mpr he⟩ ho
      obtain ⟨rest, hrest, hsealed'⟩ := hf o s' (log ++ more)
      exact ⟨more ++ rest, hrest.trans (List.append_assoc _ _ _), .append hquiet hsealed'⟩

/-- What is put into the log around a run is sealed by its outcome too. -/
theorem noted {x : Effect (σ × Log C) (Outcome C α)} (hx : Seals x) (description : String) (c : C) :
    Seals (Parsing.noted (.called description c) (fun o => .returned o.reason?) x) := by
  intro s log
  obtain ⟨more, hlog, hsealed⟩ := hx s (log ++ [.called description c])
  rcases hrun : x.run (s, log ++ [.called description c]) with ⟨h | o, s', log'⟩
  all_goals
    rw [hrun] at hlog hsealed
    rw [run_noted, hrun]
    subst hlog
  · exact ⟨[.called description c] ++ more, List.append_assoc _ _ _,
      .append (.called description c) (hsealed.imp nofun)⟩
  · refine ⟨[.called description c] ++ (more ++ [.returned o.reason?]), ?_,
      .append (.called description c) hsealed.returned⟩
    exact (List.append_assoc _ _ _).trans (List.append_assoc _ _ _)

variable {π : Type → Type} {T ρ : Type}

/-- A faithful dialogue is sealed by its result if the answers are. -/
theorem run {answer : {β : Type} → Scope π ρ → Origin → Parser π ρ β →
      Recognizer (Effect (σ × Log C)) C β} {x : Dialogue π ρ C (Outcome C α)} (hx : x.Faithful)
    (h : ∀ {β : Type} scope origin (q : Parser π ρ β) c, Seals (answer scope origin q c)) :
    Seals (x.run answer) := by
  induction hx with
  | done o => exact .pure o
  | stop h => exact .halt h
  | ask error _ ih =>
    refine (h _ _ _ _).bind ih fun e he s log => ⟨s, ?_⟩
    rw [error e he]
    rfl

/-- The books add nothing to the log. -/
theorem attend [Cursor C T] {env : Environment π ρ} (p : Parser π ρ α)
    {q : Recognizer (Effect (Session C ρ × Log C)) C α} (h : ∀ c, Seals (q c)) (c : C) :
    Seals (p.attend env q c) := by
  induction p using Parser.books with
  | none p hp =>
    rw [Parser.attend_eq_self hp]
    exact h c
  | tally name p =>
    rw [Parser.attend_tally]
    refine (h c).bind (fun o => ?_) fun e he s log => ⟨s, rfl⟩
    cases o with
    | success a rest => exact .update_bind fun _ => .pure _
    | noSuccess r => exact .pure _
  | rule r =>
    rw [Parser.attend_rule]
    split
    · refine .update_bind fun entry => ?_
      rcases entry with _ | _ | outcome
      · refine (h c).bind (fun o => .update_bind fun _ => .pure o) fun e he s log => ⟨_, rfl⟩
      -- what is remembered comes without a run inside, so nothing is added to the log
      · exact .pure _
      · exact .pure outcome
    · exact h c

end Seals

namespace Parser

variable {π : Type → Type} {C T ρ α : Type} [Cursor C T] [Primitive π] [Primitive.Runs π C]

/-- A run that is watched is sealed by its result, by induction on its bound. -/
theorem seals_watch (env : Environment π ρ) (fuel : Nat) (ctx : Context π ρ) (p : Parser π ρ α)
    (c : C) : Seals (p.watch env fuel ctx c) := by
  induction fuel generalizing α ctx c with
  | zero => exact .halt _
  | succ n ih =>
    refine Seals.attend p (fun d => ?_) c
    rw [← run_plan]
    exact .run (p.faithful_plan env n ctx d) fun scope origin q d =>
      .update_bind fun build => (ih _ q d).noted _ _

/-- An error that any run inside of an expression returns is what the expression returns: from then
on no expression is run, and all runs that have not returned yet return that same error. What is
watched here is the run of the expression itself. -/
theorem run_watch_error (env : Environment π ρ) (fuel : Nat) (ctx : Context π ρ)
    (p : Parser π ρ α) (c : C) (s : Session C ρ) :
    ∃ log : Log C,
      (p.watch env fuel ctx c).run (s, []) =
        ((p.run env fuel ctx c s).1, (p.run env fuel ctx c s).2, log) ∧
      ∀ before after e, log = before ++ .returned (some e) :: after → e.isError = true →
        (∀ event ∈ after, event = .returned (some e)) ∧
          (p.run env fuel ctx c s).1 = .ok (.noSuccess e) := by
  have herase := erases_watch env fuel ctx p c s []
  obtain ⟨log, hlog, hsealed⟩ := seals_watch env fuel ctx p c s []
  rw [congrArg Prod.fst herase] at hsealed
  refine ⟨log, ?_, fun before after e heq he => hsealed.of_error ?_ heq⟩
  · rw [Parser.run, ← herase, ← List.nil_append log, ← hlog]
  · rw [NoSuccess.isError_eq_not_isFailure] at he
    simpa using he

/-- The error of the element is the outcome of the repetition, and the alternative is not tried. -/
theorem run_watch_error_many :
    let c : TextReader := .ofChars ['x'] (.offset 0) ⟨0⟩
    let env : Environment TextPrimitive Unit := ⟨fun _ => .unbound, fun _ => .eof⟩
    let p : Parser TextPrimitive Unit (List Unit) := .or (.many (.abort "no x")) (.success "[]" [])
    (p.run env 3 {} c {}).1 = .ok (.noSuccess (.error "no x" (.offset 0))) := by
  intro c env p
  let e : NoSuccess := .error "no x" (.offset 0)
  obtain ⟨log, hrun, herror⟩ := run_watch_error env 3 {} p c {}
  have hlog : log = [.called "(no x)*" c, .called "no x" c] ++
      .returned (some e) :: [.returned (some e)] := congrArg (·.2.2) hrun.symm
  exact (herror _ _ e hlog rfl).2

end Parser

end Parsing
