import Parsing.Proofs.Parser.Conditions

/-!
# Deferred parsers are built once

A deferred parser is known by the build that it stands in and its site there.
`Parser.chronicle` runs an expression as `Parser.eval` does and writes down when deferred parsers
are parsed and when they are built. Writing that down changes nothing (`erases_chronicle`).

In any history of runs, however they ended, a deferred parser is built when it is first parsed and
never again (`Session.Chronicle.builtOnce`), and the counts of builds are those of the history
(`Session.Chronicle.count_builds`). Different deferred parsers lead to different builds
(`Session.Chronicle.distinct`), so those inside of what is built are deferred parsers of their own.
-/

namespace Parsing

open Recognizer

/-- What happens to deferred parsers. -/
inductive Deferral where
  | parsed (value : BuildId × Nat)
  /-- The parser was built, and counted under `label`. -/
  | built (value : BuildId × Nat) (label : String)
  deriving DecidableEq

namespace Deferral

/-- The deferred parser that it happens to. -/
def value : Deferral → BuildId × Nat
  | .parsed value => value
  | .built value _ => value

/-- Whether it is a build under a label. -/
def isBuild (label : String) : Deferral → Bool
  | .parsed _ => false
  | .built _ label' => label = label'

/-- Whether in a history a deferred parser is built as soon as it is first parsed, and only parsed
from then on. -/
def BuiltOnce (value : BuildId × Nat) (history : List Deferral) : Prop :=
  ∃ before label after, history = before ++ .parsed value :: .built value label :: after ∧
    (∀ e ∈ before, e.value ≠ value) ∧ ∀ e ∈ after, e.value = value → e = .parsed value

/-- A deferred parser that was built once is built once still, if it is only parsed later. -/
theorem BuiltOnce.append {value : BuildId × Nat} {history more : List Deferral}
    (h : BuiltOnce value history) (hmore : ∀ e ∈ more, e.value = value → e = .parsed value) :
    BuiltOnce value (history ++ more) := by
  obtain ⟨before, label, after, rfl, hbefore, hafter⟩ := h
  refine ⟨before, label, after ++ more, by simp, hbefore, fun e he => ?_⟩
  rcases List.mem_append.mp he with he | he
  · exact hafter e he
  · exact hmore e he

end Deferral

namespace Session

variable {C ρ : Type}

/-- What happens to deferred parsers when a run is entered. -/
def deferrals (s : Session C ρ) (current : BuildId) : Origin → List Deferral
  | .deferred site label =>
    if (s.deferred.find? (current, site)).isSome then [.parsed (current, site)]
    else [.parsed (current, site), .built (current, site) label]
  | .same | .new | .known _ => []

end Session

/-! ## Runs with a history -/

/-- Enters a run and writes down what happens to deferred parsers. -/
def entering {C ρ : Type} (current : BuildId) (origin : Origin) :
    Effect (Session C ρ × List Deferral) BuildId :=
  ⟨fun (s, history) => (.ok (s.enter current origin).1, (s.enter current origin).2,
    history ++ s.deferrals current origin)⟩

namespace Parser

variable {π : Type → Type} {C T ρ α : Type} [Cursor C T] [Primitive π] [Primitive.Runs π C]

/-- Runs an expression as `eval` does, and goes on with the history of deferred parsers. -/
def chronicle (env : Environment π ρ) : {α : Type} → (fuel : Nat) → Context π ρ → Parser π ρ α →
    Recognizer (Effect (Session C ρ × List Deferral)) C α
  | _, 0, _, _ => fun _ => halt .outOfFuel
  | _, n + 1, ctx, p =>
    p.attend env <| p.step env n
      (fun scope origin q c => do
        let build ← entering ctx.build origin
        q.chronicle env n { scope, build } c)
      ctx

/-- Takes the description of an expression between runs. It is made of the expression alone: no
deferred parser is parsed or built for it. -/
def describing (p : Parser π ρ α) : Effect (Session C ρ × List Deferral) String :=
  pure p.describe

/-- How `chronicle` runs the expressions below one that runs in `build`. -/
def chronicleAnswer (env : Environment π ρ) (fuel : Nat) (build : BuildId) {β : Type}
    (scope : Scope π ρ) (origin : Origin) (q : Parser π ρ β) :
    Recognizer (Effect (Session C ρ × List Deferral)) C β := fun c => do
  let build ← entering build origin
  q.chronicle env fuel { scope, build } c

/-- Writing the history down, an expression holds the same dialogue. -/
theorem chronicle_succ (env : Environment π ρ) (fuel : Nat) (ctx : Context π ρ) (p : Parser π ρ α) :
    p.chronicle env (fuel + 1) ctx = p.attend env fun c : C =>
      (p.plan env fuel ctx c).run (chronicleAnswer env fuel ctx.build) := by
  rw [funext (run_plan (chronicleAnswer env fuel ctx.build) env fuel ctx p)]
  rfl

/-- Writing the history down changes nothing. -/
theorem erases_chronicle (env : Environment π ρ) (fuel : Nat) (ctx : Context π ρ)
    (p : Parser π ρ α) (c : C) : Erases (p.chronicle env fuel ctx c) (p.eval env fuel ctx c) := by
  induction fuel generalizing α ctx c with
  | zero => exact fun _ _ => rfl
  | succ n ih =>
    rw [chronicle_succ, eval_succ]
    refine Erases.attend p (fun d => ?_) c
    refine Erases.run (fun scope origin q e => ?_) _
    have henter : Erases (entering (C := C) (ρ := ρ) ctx.build origin)
        (update fun s : Session C ρ => s.enter ctx.build origin) := fun _ _ => rfl
    exact henter.bind fun build => ih _ q e

end Parser

/-! ## What runs keep -/

namespace Keeps

variable {π : Type → Type} {C T ρ σ τ α : Type}

/-- Runs keep a condition on the state if the answers to their questions do. -/
theorem of_answers {P : σ → Prop}
    {answer : {β : Type} → Scope π ρ → Origin → Parser π ρ β → Recognizer (Effect σ) C β}
    (h : ∀ {β : Type} scope origin (q : Parser π ρ β) c,
      Keeps P (fun _ => True) (answer scope origin q c)) (x : Dialogue π ρ C α) :
    Keeps P (fun _ => True) (x.run answer) := by
  induction x with
  | done a => exact .pure trivial
  | stop halt => exact .halt fun _ => id
  | ask scope origin q c next ih => exact (h scope origin q c).bind fun o _ => ih o

/-- Keeping the books keeps a condition that looks at neither memos nor calls. -/
theorem attend_added [Cursor C T] {env : Environment π ρ} {P : Session C ρ × τ → Prop}
    (hP : ∀ s s' t, s'.deferred = s.deferred → s'.builds = s.builds → s'.buildCount = s.buildCount →
      P (s, t) → P (s', t))
    {q : Recognizer (Effect (Session C ρ × τ)) C α} (p : Parser π ρ α) (c : C)
    (h : Keeps P (fun _ => True) (q c)) : Keeps P (fun _ => True) (p.attend env q c) := by
  induction p using Parser.books with
  | none p hp =>
    rw [Parser.attend_eq_self hp]
    exact h
  | tally name p =>
    rw [Parser.attend_tally]
    refine h.bind fun o _ => ?_
    cases o with
    | success a rest =>
      exact .update_bind_added (fun s t => hP s _ t rfl rfl rfl) fun _ => .pure trivial
    | noSuccess r => exact .pure trivial
  | rule r =>
    rw [Parser.attend_rule]
    split
    · refine .update_bind_added (fun s t => hP s _ t rfl rfl rfl) fun entry => ?_
      rcases entry with _ | _ | outcome
      · exact h.bind fun o _ =>
          .update_bind_added (fun s t => hP s _ t rfl rfl rfl) fun _ => .pure trivial
      · exact .pure trivial
      · exact .pure trivial
    · exact h

end Keeps

/-! ## Histories -/

namespace Session

variable {C ρ : Type} {s t : Session C ρ} {history : List Deferral}

/-- Whether a session knows of the deferred parsers what a history says of them. -/
structure Chronicled (s : Session C ρ) (history : List Deferral) : Prop where
  /-- What has no build was not parsed, and what has one was built once. -/
  once (value : BuildId × Nat) :
    (s.deferred.find? value = none ∧ ∀ e ∈ history, e.value ≠ value) ∨
      ((s.deferred.find? value).isSome ∧ Deferral.BuiltOnce value history)
  count (label : String) :
    (s.builds.find? label).getD 0 = history.countP (Deferral.isBuild label)
  fresh {value : BuildId × Nat} {build : BuildId} (h : s.deferred.find? value = some build) :
    build.number < s.buildCount
  distinct {value value' : BuildId × Nat} {build : BuildId}
    (h : s.deferred.find? value = some build) (h' : s.deferred.find? value' = some build) :
    value = value'

/-- Before the first run, nothing has happened to deferred parsers. -/
theorem Chronicled.start (hdeferred : s.deferred = {}) (hbuilds : s.builds = {}) :
    s.Chronicled [] where
  once value := .inl ⟨by rw [hdeferred, Table.find?_empty], by simp⟩
  count label := by rw [hbuilds, Table.find?_empty]; rfl
  fresh h := by rw [hdeferred, Table.find?_empty] at h; cases h
  distinct h := by rw [hdeferred, Table.find?_empty] at h; cases h

/-- What is known of deferred parsers depends on their tables only. -/
theorem Chronicled.congr (h : s.Chronicled history) (hdeferred : t.deferred = s.deferred)
    (hbuilds : t.builds = s.builds) (hcount : s.buildCount ≤ t.buildCount) :
    t.Chronicled history where
  once value := by rw [hdeferred]; exact h.once value
  count label := by rw [hbuilds]; exact h.count label
  fresh hvalue := Nat.lt_of_lt_of_le (h.fresh (hdeferred ▸ hvalue)) hcount
  distinct hvalue hvalue' := h.distinct (hdeferred ▸ hvalue) (hdeferred ▸ hvalue')

/-- Parsing what was built before builds nothing. -/
theorem Chronicled.parsed (h : s.Chronicled history) {value : BuildId × Nat}
    (hvalue : (s.deferred.find? value).isSome) : s.Chronicled (history ++ [.parsed value]) where
  once value' := by
    have hnew : ∀ e ∈ [Deferral.parsed value], e.value = value' → e = .parsed value' := by
      intro e he heq
      cases List.mem_singleton.mp he
      exact congrArg _ heq
    rcases h.once value' with ⟨hnone, hhistory⟩ | ⟨hsome, honce⟩
    · refine .inl ⟨hnone, fun e he heq => ?_⟩
      rcases List.mem_append.mp he with he | he
      · exact hhistory e he heq
      · cases List.mem_singleton.mp he
        have hmatch : value = value' := heq
        rw [hmatch, hnone] at hvalue
        cases hvalue
    · exact .inr ⟨hsome, honce.append hnew⟩
  count label := by rw [h.count, List.countP_append]; rfl
  fresh := h.fresh
  distinct := h.distinct

/-- A deferred parser that was not built before begins a new build. -/
theorem resolve_of_none {current : BuildId} {site : Nat}
    (h : s.deferred.find? (current, site) = none) (label : String) :
    (s.resolve current site label).2 =
      { s with
        buildCount := s.buildCount + 1
        deferred := s.deferred.insert (current, site) ⟨s.buildCount⟩
        builds := countUp s.builds label } := by
  rw [Session.resolve, h]
  rfl

/-- What was not built before is built when it is parsed. -/
theorem Chronicled.resolve (h : s.Chronicled history) {current : BuildId} {site : Nat}
    (hnone : s.deferred.find? (current, site) = none) (label : String) :
    (s.resolve current site label).2.Chronicled
      (history ++ [.parsed (current, site), .built (current, site) label]) := by
  -- the build that is begun is not known of any other deferred parser
  have hnew {value : BuildId × Nat} : s.deferred.find? value ≠ some ⟨s.buildCount⟩ := fun heq =>
    Nat.lt_irrefl _ (h.fresh heq)
  rw [resolve_of_none hnone]
  constructor
  case once =>
    intro value
    simp only [Table.find?_insert]
    split
    case isTrue heq =>
      subst heq
      have hbefore := (h.once (current, site)).resolve_right fun hsome => by
        rw [hnone] at hsome
        cases hsome.1
      exact .inr ⟨rfl, history, label, [], rfl, hbefore.2, by simp⟩
    case isFalse hne =>
      have hother : ∀ e ∈ [Deferral.parsed (current, site), .built (current, site) label],
          e.value ≠ value := by
        simpa [Deferral.value] using Ne.symm hne
      rcases h.once value with ⟨hnone, hhistory⟩ | ⟨hsome, honce⟩
      · exact .inl ⟨hnone, fun e he => (List.mem_append.mp he).elim (hhistory e) (hother e)⟩
      · exact .inr ⟨hsome, honce.append fun e he heq => absurd heq (hother e he)⟩
  case count =>
    intro label'
    simp only [countUp, Table.find?_insert, List.countP_append, ← h.count]
    split <;> simp [Deferral.isBuild, *]
  case fresh =>
    intro value build hfind
    rw [Table.find?_insert] at hfind
    split at hfind
    · cases hfind
      exact Nat.lt_succ_self _
    · exact Nat.lt_succ_of_lt (h.fresh hfind)
  case distinct =>
    intro value value' build hfind hfind'
    rw [Table.find?_insert] at hfind hfind'
    split at hfind <;> split at hfind'
    · exact Eq.trans ‹_› (Eq.symm ‹_›)
    · cases hfind
      exact absurd hfind' hnew
    · cases hfind'
      exact absurd hfind hnew
    · exact h.distinct hfind hfind'

/-- Entering a run goes on with the history. -/
theorem Chronicled.enter (h : s.Chronicled history) (current : BuildId) (origin : Origin) :
    (s.enter current origin).2.Chronicled (history ++ s.deferrals current origin) := by
  cases origin with
  | deferred site label =>
    rw [Session.enter, deferrals]
    cases hfind : s.deferred.find? (current, site) with
    | none => exact h.resolve hfind label
    | some inner =>
      rw [Session.resolve, hfind]
      exact h.parsed (by rw [hfind]; rfl)
  | same | known build =>
    rw [deferrals, List.append_nil]
    exact h
  | new =>
    rw [deferrals, List.append_nil]
    exact h.congr rfl rfl (Nat.le_succ _)

variable {π : Type → Type} {T : Type} [Cursor C T] [Primitive π] [Primitive.Runs π C]

/-- The sessions that runs lead to, each with its history: of any expressions, from anywhere, and
however they end. Between them descriptions may be taken, and anything may happen that is none of
the deferred parsers' concern. -/
inductive Chronicle (π : Type → Type) [Primitive π] [Primitive.Runs π C] :
    Session C ρ → List Deferral → Prop where
  | start {s : Session C ρ} (hdeferred : s.deferred = {}) (hbuilds : s.builds = {}) :
    Chronicle π s []
  | run {s : Session C ρ} {history : List Deferral} (h : Chronicle π s history)
    (env : Environment π ρ) {α : Type} (p : Parser π ρ α) (fuel : Nat) (ctx : Context π ρ) (c : C) :
    Chronicle π ((p.chronicle env fuel ctx c).run (s, history)).2.1
      ((p.chronicle env fuel ctx c).run (s, history)).2.2
  | describe {s : Session C ρ} {history : List Deferral} (h : Chronicle π s history) {α : Type}
    (p : Parser π ρ α) :
    Chronicle π (p.describing.run (s, history)).2.1 (p.describing.run (s, history)).2.2
  | between {s t : Session C ρ} {history : List Deferral} (h : Chronicle π s history)
    (hdeferred : t.deferred = s.deferred) (hbuilds : t.builds = s.builds)
    (hcount : s.buildCount ≤ t.buildCount) : Chronicle π t history

end Session

/-- Runs go on with the history. -/
theorem Parser.chronicle_keeps {π : Type → Type} {C T ρ α : Type} [Cursor C T] [Primitive π]
    [Primitive.Runs π C] (env : Environment π ρ) (fuel : Nat) (ctx : Context π ρ)
    (p : Parser π ρ α) (c : C) :
    Keeps (fun x : Session C ρ × List Deferral => x.1.Chronicled x.2) (fun _ => True)
      (p.chronicle env fuel ctx c) := by
  induction fuel generalizing α ctx c with
  | zero => exact .halt fun _ => id
  | succ n ih =>
    rw [chronicle_succ]
    refine .attend_added (fun s s' t hdeferred hbuilds hcount h =>
      h.congr hdeferred hbuilds (Nat.le_of_eq hcount.symm)) p c ?_
    refine .of_answers (fun scope origin q d => ?_) _
    exact fun x hx => ih _ q d _ (hx.enter ctx.build origin)

namespace Session.Chronicle

variable {π : Type → Type} {C T ρ : Type} [Cursor C T] [Primitive π] [Primitive.Runs π C]
  {s : Session C ρ} {history : List Deferral}

/-- A session knows of the deferred parsers what its history says. -/
theorem chronicled (h : Chronicle π s history) : s.Chronicled history := by
  induction h with
  | start hdeferred hbuilds => exact .start hdeferred hbuilds
  | run h env p fuel ctx c ih => exact (p.chronicle_keeps env fuel ctx c).state ih
  | describe h p ih => exact ih
  | between h hdeferred hbuilds hcount ih => exact ih.congr hdeferred hbuilds hcount

/-- A deferred parser that was parsed was built when it was first parsed, and never again. -/
theorem builtOnce (h : Chronicle π s history) (value : BuildId × Nat) :
    (∀ e ∈ history, e.value ≠ value) ∨ Deferral.BuiltOnce value history :=
  (h.chronicled.once value).imp And.right And.right

/-- The counts of builds are those in the history. -/
theorem count_builds (h : Chronicle π s history) (label : String) :
    (s.builds.find? label).getD 0 = history.countP (Deferral.isBuild label) :=
  h.chronicled.count label

/-- No two deferred parsers lead to the same build. -/
theorem distinct (h : Chronicle π s history) {value value' : BuildId × Nat} {build : BuildId}
    (hvalue : s.deferred.find? value = some build)
    (hvalue' : s.deferred.find? value' = some build) : value = value' :=
  h.chronicled.distinct hvalue hvalue'

end Session.Chronicle

end Parsing
