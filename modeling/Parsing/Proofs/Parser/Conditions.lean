import Parsing.Proofs.Parser.Errors
import Parsing.Proofs.Parser.Memo

/-!
# Conditions on runs

`Abides P V E` says of a run that from a state with `P` it either comes to a value with `V`, in a
state with `P` again, or stops as `E` allows. What is certain however a run ends is said in terms of
`Keeps`, and what is certain only of runs that come to an outcome, in terms of `Yields`.
-/

namespace Parsing

open Recognizer Cursor

section

variable {σ α : Type}

/-- Whether a run keeps a condition on its state and ends with a value that satisfies another one,
or stops in a way that is allowed. -/
def Abides (P : σ → Prop) (V : α → Prop) (E : Halt → σ → Prop) (x : Effect σ α) : Prop :=
  ∀ s, P s → match x.run s with
    | (.ok a, s') => P s' ∧ V a
    | (.error halt, s') => E halt s'

/-- Whether a run keeps a condition on its state, however it ends, and ends with a value that
satisfies another one, if it ends with a value. -/
abbrev Keeps (P : σ → Prop) (V : α → Prop) : Effect σ α → Prop :=
  Abides P V fun _ => P

/-- Whether a run that comes to a value keeps a condition on its state, and the value satisfies
another one. -/
abbrev Yields (P : σ → Prop) (V : α → Prop) : Effect σ α → Prop :=
  Abides P V fun _ _ => True

end

namespace Abides

variable {σ α β : Type} {P : σ → Prop} {V : α → Prop} {W : β → Prop} {E : Halt → σ → Prop}
  {x : Effect σ α} {s s' : σ}

/-- To abide is to do so in both ways to end. -/
theorem intro (hok : ∀ s a s', P s → x.run s = (.ok a, s') → P s' ∧ V a)
    (herror : ∀ s halt s', P s → x.run s = (.error halt, s') → E halt s') : Abides P V E x := by
  intro s hs
  rcases hrun : x.run s with ⟨halt | a, s'⟩
  · exact herror s halt s' hs hrun
  · exact hok s a s' hs hrun

/-- A run that ends with a value has kept the condition. -/
theorem of_ok (h : Abides P V E x) (hs : P s) {a : α} (hrun : x.run s = (.ok a, s')) :
    P s' ∧ V a := by
  have hx := h s hs
  rwa [hrun] at hx

/-- A run that stops does so as it is allowed. -/
theorem of_error (h : Abides P V E x) (hs : P s) {halt : Halt}
    (hrun : x.run s = (.error halt, s')) : E halt s' := by
  have hx := h s hs
  rwa [hrun] at hx

/-- Conditions on the end of a run may be weakened. -/
theorem imp {V' : α → Prop} {E' : Halt → σ → Prop} (h : Abides P V E x) (hV : ∀ a, V a → V' a)
    (hE : ∀ halt s, E halt s → E' halt s) : Abides P V' E' x :=
  .intro (fun _ a _ hs hrun => (h.of_ok hs hrun).imp_right (hV a))
    fun _ halt s' hs hrun => hE halt s' (h.of_error hs hrun)

/-- A value that satisfies the condition may be returned. -/
theorem pure {a : α} (h : V a) : Abides P V E (Pure.pure a) :=
  fun _ hs => ⟨hs, h⟩

/-- A run may stop where that is allowed. -/
theorem halt {halt : Halt} (h : ∀ s, P s → E halt s) : Abides P V E (Parsing.halt halt) :=
  h

/-- Runs in sequence abide if both do. -/
theorem bind {f : α → Effect σ β} (hx : Abides P V E x) (hf : ∀ a, V a → Abides P W E (f a)) :
    Abides P W E (x >>= f) := by
  intro s hs
  have h := hx s hs
  rw [Effect.run_bind]
  rcases hrun : x.run s with ⟨_ | a, s'⟩
  all_goals rw [hrun] at h
  · exact h
  · exact hf a h.2 s' h.1

/-- A change of the state that keeps the condition may come first. -/
theorem update_bind {f : σ → α × σ} {g : α → Effect σ β} (h : ∀ s, P s → P (f s).2)
    (hg : ∀ a, Abides P W E (g a)) : Abides P W E (Parsing.update f >>= g) :=
  fun s hs => hg (f s).1 (f s).2 (h s hs)

/-- Changing a state to which something was added. -/
theorem update_bind_added {τ : Type} {P : σ × τ → Prop} {E : Halt → σ × τ → Prop} {f : σ → α × σ}
    {g : α → Effect (σ × τ) β} (h : ∀ s t, P (s, t) → P ((f s).2, t))
    (hg : ∀ a, Abides P W E (g a)) : Abides P W E (Parsing.update f >>= g) :=
  fun x hx => hg (f x.1).1 ((f x.1).2, x.2) (h x.1 x.2 hx)

variable {π : Type → Type} {C T ρ : Type} [Cursor C T] {base c : C}

/-- A dialogue abides if the answers to its questions do. -/
theorem run {answer : {β : Type} → Scope π ρ → Origin → Parser π ρ β → Recognizer (Effect σ) C β}
    (hE : ∀ halt s, P s → E halt s)
    (h : ∀ {β : Type} scope origin (q : Parser π ρ β) {c : C}, After base c →
      Abides P (·.Within c) E (answer scope origin q c))
    {x : Dialogue π ρ C (Outcome C α)} (hx : x.Ahead .any base) :
    Abides P (·.Within base) E (x.run answer) := by
  induction hx with
  | done ho _ => exact .pure ho
  | stop halt _ => exact .halt (hE halt)
  | ask _ hc _ ih => exact (h _ _ _ hc).bind fun o ho => ih o ho fun _ => trivial

/-- Keeping the books on a run, if counting keeps the condition. What is done about rules is another
matter. -/
theorem attend {P : Session C ρ → Prop} {V : Outcome C α → Prop} {E : Halt → Session C ρ → Prop}
    {env : Environment π ρ} {q : Recognizer (Effect (Session C ρ)) C α} {p : Parser π ρ α}
    (tally : ∀ s name, P s → P (s.tally name))
    (rule : p.isRule = true → Abides P V E (p.attend env q c)) (h : Abides P V E (q c)) :
    Abides P V E (p.attend env q c) := by
  induction p using Parser.books with
  | none p hp =>
    rw [Parser.attend_eq_self hp]
    exact h
  | tally name p =>
    rw [Parser.attend_tally]
    refine h.bind fun o ho => ?_
    cases o with
    | success a rest => exact .update_bind (fun s hs => tally s name hs) fun _ => .pure ho
    | noSuccess r => exact .pure ho
  | rule r => exact rule rfl

/-- A rule that keeps a memo abides if its parser does, and if remembering keeps the condition. -/
theorem memoized {P : Session C ρ → Prop} {V : Outcome C ρ → Prop} {E : Halt → Session C ρ → Prop}
    {r : RuleId} {body : Recognizer (Effect (Session C ρ)) C ρ}
    (call : ∀ s, P s → P (s.call r (key c)).2)
    (resolve : ∀ s o, P s → V o → P (s.resolveCall r (key c) o))
    (resolved : ∀ s o, P s → s.lookup r (key c) = some (.resolved o) → V o)
    (pending : V (.noSuccess (leftRecursion c))) (hbody : Abides P V E (body c)) :
    Abides P V E (Recognizer.memoized r body c) := by
  intro s hs
  have hcall := call s hs
  rcases hentry : s.lookup r (key c) with _ | _ | o
  · rw [run_memoized_of_none _ hentry]
    have h := hbody _ hcall
    -- the run may stop in the parser of the rule
    rcases hrun : (body c).run (s.call r (key c)).2 with ⟨_ | o, s'⟩
    all_goals rw [hrun] at h
    · exact h
    · exact ⟨resolve s' o h.1 h.2, h.2⟩
  · rw [run_memoized_of_pending _ hentry]
    exact ⟨hcall, pending⟩
  · rw [run_memoized_of_resolved _ hentry]
    exact ⟨hcall, resolved s o hs hentry⟩

end Abides

/-- A run that keeps a condition leads to a state that satisfies it. -/
theorem Keeps.state {σ α : Type} {P : σ → Prop} {V : α → Prop} {x : Effect σ α} (h : Keeps P V x)
    {s : σ} (hs : P s) : P (x.run s).2 := by
  rcases hrun : x.run s with ⟨halt | a, s'⟩
  · exact h.of_error hs hrun
  · exact (h.of_ok hs hrun).1

end Parsing
