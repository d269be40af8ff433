import Mathlib.Data.List.OfFn
import Parsing.Parser.Combinators
import Parsing.Proofs.Parser.Refinement

/-!
# What expressions settle on

An expression settles on an outcome at a cursor if every run there comes to that outcome, as soon as
its bound is large enough and whatever the session and the context are (`Parser.Settles`). What an
expression settles on may depend on the recursive parsers around it (`Parser.SettlesIn`): the body
of a recursive parser runs where its name stands for it (`Parser.Within`), and there the name
settles on what the body does. All of that is proved from the parts up: for each way of combining
expressions there are lemmas which tell what a combination settles on when its parts settle on
successes, or refuse (`Parser.Refuses`).

A run that does come to an outcome comes to the one that its expression settles on, no matter how
small its bound was (`Settles.eq_of_run`).
-/

namespace Parsing

open Recognizer

/-! ## Runs with a certain value -/

/-- Whether a run comes to a value from every state. -/
def Effect.Gives {σ α : Type} (x : Effect σ α) (a : α) : Prop :=
  ∀ s, (x.run s).1 = .ok a

namespace Effect.Gives

variable {σ α β γ : Type}

/-- Returning a value gives it. -/
theorem pure (a : α) : (Pure.pure a : Effect σ α).Gives a :=
  fun _ => rfl

/-- A sequence gives what its second part gives for the value of the first one. -/
theorem bind {x : Effect σ α} {f : α → Effect σ β} {a : α} {b : β} (hx : x.Gives a)
    (hf : (f a).Gives b) : (x >>= f).Gives b := by
  intro s
  have hvalue := hx s
  rw [run_bind]
  rcases hrun : x.run s with ⟨_ | a', s'⟩
  all_goals rw [hrun] at hvalue
  · cases hvalue
  · cases hvalue
    exact hf s'

/-- A change of state does not matter if what comes after it does not depend on it. -/
theorem update_bind {f : σ → γ × σ} {g : γ → Effect σ α} {a : α} (hg : ∀ c, (g c).Gives a) :
    (update f >>= g).Gives a :=
  fun s => hg (f s).1 (f s).2

variable {C T : Type} [Cursor C T] {p : Recognizer (Effect σ) C α} {q : Recognizer (Effect σ) C β}
  {next : α → Recognizer (Effect σ) C β} {otherwise : NoSuccess → Recognizer (Effect σ) C β}
  {c d e : C} {a : α} {b : β} {r : NoSuccess} {o : Outcome C β}

/-- After a success, a branch goes on with its value. -/
theorem branch_success (hp : (p c).Gives (.success a d)) (hnext : (next a d).Gives o) :
    (branch p next otherwise c).Gives o :=
  bind hp hnext

/-- After a failure, a branch goes its other way. -/
theorem branch_failure (hp : (p c).Gives (.noSuccess r)) (hr : r.isFailure = true)
    (hotherwise : (otherwise r c).Gives o) : (branch p next otherwise c).Gives o := by
  refine bind hp ?_
  simp only [hr, if_true]
  exact hotherwise

/-- Mapping a success. -/
theorem map_success (f : α → β) (hp : (p c).Gives (.success a d)) :
    (map f p c).Gives (.success (f a) d) :=
  branch_success hp (pure _)

/-- After a failure nothing is chained. -/
theorem chain_failure (hp : (p c).Gives (.noSuccess r)) (hr : r.isFailure = true) :
    (chain p next c).Gives (.noSuccess r) :=
  branch_failure hp hr (pure _)

/-- Two recognizers in turn succeed if both do. -/
theorem zip_success (f : α → β → γ) (hp : (p c).Gives (.success a d))
    (hq : (q d).Gives (.success b e)) : (zip f p q c).Gives (.success (f a b) e) :=
  branch_success hp (map_success (f a) hq)

/-- Two recognizers in turn fail where the second one fails. -/
theorem zip_failure (f : α → β → γ) (hp : (p c).Gives (.success a d))
    (hq : (q d).Gives (.noSuccess r)) (hr : r.isFailure = true) :
    (zip f p q c).Gives (.noSuccess r) :=
  branch_success hp (chain_failure hq hr)

/-- A pair of which the separator is not there ends the loop. -/
theorem pairs_nil {separator : Recognizer (Effect σ) C β} (k : Nat)
    (hseparator : (separator c).Gives (.noSuccess r)) (hr : r.isFailure = true) :
    (pairs separator p (k + 1) c).Gives (.success [] c) := by
  refine branch_success (a := none) (d := c) ?_ (pure _)
  exact branch_failure (chain_failure (chain_failure hseparator hr) hr) hr (pure _)

/-- A loop over pairs gives one pair more if one more is read in front. -/
theorem pairs_cons {separator : Recognizer (Effect σ) C β} {k : Nat} {xs : List (β × α)} {f : C}
    (hseparator : (separator c).Gives (.success b d)) (hp : (p d).Gives (.success a e))
    (hloop : (pairs separator p k e).Gives (.success xs f)) :
    (pairs separator p (k + 1) c).Gives (.success ((b, a) :: xs) f) := by
  have hpair := map_success some (zip_success Prod.mk hseparator hp)
  exact branch_success (branch_success hpair (pure _)) (map_success _ hloop)

/-- A repetition that is not there ends the loop. -/
theorem openEnded_nil (k : Nat) (hp : (p c).Gives (.noSuccess r)) (hr : r.isFailure = true) :
    (openEnded p (k + 1) c).Gives (.success [] c) :=
  branch_failure hp hr (pure _)

/-- A repetition that consumed something is followed by the others. -/
theorem openEnded_cons {k : Nat} {as : List α} (hp : (p c).Gives (.success a d))
    (hmoved : Cursor.position d ≠ Cursor.position c)
    (hloop : (openEnded p k d).Gives (.success as e)) :
    (openEnded p (k + 1) c).Gives (.success (a :: as) e) := by
  refine branch_success hp ?_
  simp only [hmoved, if_false]
  exact map_success (List.cons a) hloop

end Effect.Gives

/-! ## Settling -/

/-- Two conditions that hold from some bounds on hold together from some bound on. -/
theorem exists_le_and {P Q : Nat → Prop} (hP : ∃ n, ∀ m, n ≤ m → P m)
    (hQ : ∃ n, ∀ m, n ≤ m → Q m) : ∃ n, ∀ m, n ≤ m → P m ∧ Q m := by
  obtain ⟨n, hn⟩ := hP
  obtain ⟨k, hk⟩ := hQ
  refine ⟨max n k, fun m hm => ⟨hn m ?_, hk m ?_⟩⟩
  · exact Nat.le_trans (Nat.le_max_left n k) hm
  · exact Nat.le_trans (Nat.le_max_right n k) hm

namespace Parser

variable {π : Type → Type} {C T ρ α β γ : Type} [Cursor C T] [Primitive π] [Primitive.Runs π C]
  {env : Environment π ρ} {S : Scope π ρ → Prop} {p : Parser π ρ α} {q : Parser π ρ β} {c d e : C}
  {a : α} {b : β} {o o' : Outcome C α}

/-- Whether every run of an expression at a cursor comes to an outcome once it may be deep
enough. -/
def Settles (env : Environment π ρ) (p : Parser π ρ α) (c : C) (o : Outcome C α) : Prop :=
  ∃ n, ∀ m, n ≤ m → ∀ ctx, (p.eval env m ctx c : Effect (Session C ρ) (Outcome C α)).Gives o

/-- Whether an expression settles on a failure. -/
def Refuses (env : Environment π ρ) (p : Parser π ρ α) (c : C) : Prop :=
  ∃ r, r.isFailure = true ∧ p.Settles env c (.noSuccess r)

/-- Whether an expression settles on an outcome in the scopes of some kind. -/
def SettlesIn (env : Environment π ρ) (S : Scope π ρ → Prop) (p : Parser π ρ α) (c : C)
    (o : Outcome C α) : Prop :=
  ∃ n, ∀ m, n ≤ m → ∀ ctx, S ctx.scope →
    (p.eval env m ctx c : Effect (Session C ρ) (Outcome C α)).Gives o

/-- Whether an expression settles on a failure in the scopes of some kind. -/
def RefusesIn (env : Environment π ρ) (S : Scope π ρ → Prop) (p : Parser π ρ α) (c : C) : Prop :=
  ∃ r, r.isFailure = true ∧ p.SettlesIn env S c (.noSuccess r)

/-- What settles does so in all scopes. -/
theorem Settles.settlesIn (h : p.Settles env c o) : p.SettlesIn env S c o := by
  obtain ⟨n, hn⟩ := h
  exact ⟨n, fun m hm ctx _ => hn m hm ctx⟩

/-- Settling in all scopes is settling. -/
theorem settlesIn_true : p.SettlesIn env (fun _ => True) c o ↔ p.Settles env c o := by
  simp only [SettlesIn, Settles, forall_const]

/-- What refuses does so in all scopes. -/
theorem Refuses.refusesIn (h : p.Refuses env c) : p.RefusesIn env S c := by
  obtain ⟨r, hr, hsettles⟩ := h
  exact ⟨r, hr, hsettles.settlesIn⟩

/-- Refusing in all scopes is refusing. -/
theorem refusesIn_true : p.RefusesIn env (fun _ => True) c ↔ p.Refuses env c := by
  simp only [RefusesIn, Refuses, settlesIn_true]

/-- A run that comes to an outcome comes to the one that its expression settles on. -/
theorem Settles.eq_of_run (h : p.Settles env c o) {fuel : Nat} {ctx : Context π ρ}
    {s : Session C ρ} (hrun : (p.run env fuel ctx c s).1 = .ok o') : o = o' := by
  obtain ⟨n, hn⟩ := h
  have hlarge := hn (max fuel n) (Nat.le_max_right fuel n) ctx s
  rcases hfst : p.run env fuel ctx c s with ⟨x, s'⟩
  rw [hfst] at hrun
  cases hrun
  obtain ⟨t, ht, -⟩ :=
    eval_follows env (Nat.le_max_left fuel n) rfl p c s s rfl o' s' hfst
  rw [ht] at hlarge
  exact (Except.ok.inj hlarge).symm

/-- An expression settles on one outcome. -/
theorem Settles.unique (h : p.Settles env c o) (h' : p.Settles env c o') : o = o' := by
  obtain ⟨n, hn⟩ := h'
  exact h.eq_of_run (hn n (Nat.le_refl n) {} {})

/-- What an expression settles on it also comes to where another one runs it. -/
theorem SettlesIn.answer (h : p.SettlesIn env S c o) : ∃ n, ∀ m, n ≤ m → ∀ build scope origin,
    S scope → (Parser.answer env m build scope origin p c).Gives o := by
  obtain ⟨n, hn⟩ := h
  exact ⟨n, fun m hm build scope origin hscope =>
    .update_bind fun inner => hn m hm ⟨scope, inner⟩ hscope⟩

/-- What settles answers a question with its outcome. -/
theorem Settles.answer (h : p.Settles env c o) : ∃ n, ∀ m, n ≤ m → ∀ build scope origin,
    (Parser.answer env m build scope origin p c).Gives o := by
  obtain ⟨n, hn⟩ := (settlesIn_true.mpr h).answer
  exact ⟨n, fun m hm build scope origin => hn m hm build scope origin trivial⟩

/-- An expression of which no books are kept settles on what its step comes to. -/
theorem settlesIn_iff_step (hbooks : p.keepsBooks = false) :
    p.SettlesIn env S c o ↔ ∃ n, ∀ m, n ≤ m → ∀ ctx : Context π ρ, S ctx.scope →
      (p.step env m (Parser.answer env m ctx.build) ctx c).Gives o := by
  have heval (m : Nat) (ctx : Context π ρ) :
      p.eval env (m + 1) ctx c = p.step env m (Parser.answer env m ctx.build) ctx c := by
    rw [eval_succ, attend_eq_self hbooks, run_plan]
  constructor
  · rintro ⟨n, hn⟩
    refine ⟨n, fun m hm ctx hscope => ?_⟩
    rw [← heval]
    exact hn (m + 1) (Nat.le_succ_of_le hm) ctx hscope
  · rintro ⟨n, hn⟩
    refine ⟨n + 1, fun m hm ctx hscope => ?_⟩
    obtain ⟨m, rfl⟩ := Nat.exists_eq_add_of_le' (Nat.le_trans (Nat.le_add_left 1 n) hm)
    rw [heval]
    exact hn m (Nat.le_of_succ_le_succ hm) ctx hscope

/-- What one step gives, once it may be deep enough, an expression without books settles on. -/
theorem settlesIn_of_step (hbooks : p.keepsBooks = false)
    (h : ∃ n, ∀ m, n ≤ m → ∀ ctx : Context π ρ, S ctx.scope →
      (p.step env m (Parser.answer env m ctx.build) ctx c).Gives o) : p.SettlesIn env S c o :=
  (settlesIn_iff_step hbooks).mpr h

/-- The same outside of any scope. -/
theorem settles_of_step (hbooks : p.keepsBooks = false)
    (h : ∃ n, ∀ m, n ≤ m → ∀ ctx : Context π ρ,
      (p.step env m (Parser.answer env m ctx.build) ctx c).Gives o) : p.Settles env c o := by
  obtain ⟨n, hn⟩ := h
  exact settlesIn_true.mp (settlesIn_of_step hbooks ⟨n, fun m hm ctx _ => hn m hm ctx⟩)

/-- A primitive parser settles on its outcome. -/
theorem settles_primitive {x : π α} (h : Primitive.Runs.parse x c = .ok o) :
    (primitive x).Settles env c o := by
  refine settles_of_step rfl ⟨0, fun m _ ctx => ?_⟩
  change (ofExcept (Primitive.Runs.parse x c) : Effect (Session C ρ) (Outcome C α)).Gives o
  rw [h]
  exact .pure o

/-- At the end of the input, the end is found. -/
theorem settles_eof (h : Cursor.isEmpty c = true) :
    (eof : Parser π ρ Unit).Settles env c (.success () c) := by
  refine settles_of_step rfl ⟨0, fun m _ ctx => ?_⟩
  change (Recognizer.eof c : Effect (Session C ρ) (Outcome C Unit)).Gives _
  rw [Recognizer.eof, if_pos h]
  exact .pure _

/-! ### One after another -/

/-- Mapping settles on the image. -/
theorem SettlesIn.map (f : α → β) (h : p.SettlesIn env S c (.success a d)) :
    (map f p).SettlesIn env S c (.success (f a) d) := by
  obtain ⟨n, hn⟩ := h.answer
  exact settlesIn_of_step rfl ⟨n, fun m hm ctx hS => .map_success f (hn m hm _ _ _ hS)⟩

/-- Mapping does not change a refusal. -/
theorem RefusesIn.map (f : α → β) (h : p.RefusesIn env S c) : (map f p).RefusesIn env S c := by
  obtain ⟨r, hr, hsettles⟩ := h
  obtain ⟨n, hn⟩ := hsettles.answer
  exact ⟨r, hr, settlesIn_of_step rfl
    ⟨n, fun m hm ctx hS => .chain_failure (hn m hm _ _ _ hS) hr⟩⟩

/-- Two expressions in turn settle if both do. -/
theorem SettlesIn.zip (f : α → β → γ) (hp : p.SettlesIn env S c (.success a d))
    (hq : q.SettlesIn env S d (.success b e)) :
    (zip f p q).SettlesIn env S c (.success (f a b) e) := by
  obtain ⟨n, hn⟩ := exists_le_and hp.answer hq.answer
  exact settlesIn_of_step rfl ⟨n, fun m hm ctx hS =>
    .zip_success f ((hn m hm).1 _ _ _ hS) ((hn m hm).2 _ _ _ hS)⟩

/-- If the first of two expressions settles on a failure, both do. -/
theorem settlesIn_zip_of_failure (f : α → β → γ) {r : NoSuccess} (hr : r.isFailure = true)
    (h : p.SettlesIn env S c (.noSuccess r)) :
    (zip f p q).SettlesIn env S c (.noSuccess r) := by
  obtain ⟨n, hn⟩ := h.answer
  exact settlesIn_of_step rfl ⟨n, fun m hm ctx hS => .chain_failure (hn m hm _ _ _ hS) hr⟩

/-- If the first of two expressions refuses, both do. -/
theorem RefusesIn.zip (f : α → β → γ) (h : p.RefusesIn env S c) :
    (zip f p q).RefusesIn env S c := by
  obtain ⟨r, hr, hsettles⟩ := h
  exact ⟨r, hr, settlesIn_zip_of_failure f hr hsettles⟩

/-- If the second of two expressions refuses behind the first one, both do. -/
theorem refusesIn_zip_of_settlesIn (f : α → β → γ) (hp : p.SettlesIn env S c (.success a d))
    (hq : q.RefusesIn env S d) : (zip f p q).RefusesIn env S c := by
  obtain ⟨r, hr, hsettles⟩ := hq
  obtain ⟨n, hn⟩ := exists_le_and hp.answer hsettles.answer
  exact ⟨r, hr, settlesIn_of_step rfl ⟨n, fun m hm ctx hS =>
    .zip_failure f ((hn m hm).1 _ _ _ hS) ((hn m hm).2 _ _ _ hS) hr⟩⟩

/-- Mapping settles on the image, in any scope. -/
theorem settles_map (f : α → β) (h : p.Settles env c (.success a d)) :
    (map f p).Settles env c (.success (f a) d) :=
  settlesIn_true.mp (h.settlesIn.map f)

/-- Mapping does not change a refusal, in any scope. -/
theorem Refuses.map (f : α → β) (h : p.Refuses env c) : (map f p).Refuses env c :=
  refusesIn_true.mp (h.refusesIn.map f)

/-- Two expressions in turn settle if both do, in any scope. -/
theorem settles_zip (f : α → β → γ) (hp : p.Settles env c (.success a d))
    (hq : q.Settles env d (.success b e)) : (zip f p q).Settles env c (.success (f a b) e) :=
  settlesIn_true.mp (hp.settlesIn.zip f hq.settlesIn)

/-- If the first of two expressions settles on a failure, both do, in any scope. -/
theorem settles_zip_of_failure (f : α → β → γ) {r : NoSuccess} (hr : r.isFailure = true)
    (h : p.Settles env c (.noSuccess r)) : (zip f p q).Settles env c (.noSuccess r) :=
  settlesIn_true.mp (settlesIn_zip_of_failure f hr h.settlesIn)

/-- If the first of two expressions refuses, both do, in any scope. -/
theorem Refuses.zip (f : α → β → γ) (h : p.Refuses env c) : (zip f p q).Refuses env c :=
  refusesIn_true.mp (h.refusesIn.zip f)

/-- If the second of two expressions refuses behind the first one, both do, in any scope. -/
theorem refuses_zip_of_settles (f : α → β → γ) (hp : p.Settles env c (.success a d))
    (hq : q.Refuses env d) : (zip f p q).Refuses env c :=
  refusesIn_true.mp (refusesIn_zip_of_settlesIn f hp.settlesIn hq.refusesIn)

/-- A chain settles on what the expression settles on that it goes on with. -/
theorem settles_chain {next : α → Parser π ρ β} {o : Outcome C β}
    (hp : p.Settles env c (.success a d)) (hnext : (next a).Settles env d o) :
    (chain p next).Settles env c o := by
  obtain ⟨n, hn⟩ := exists_le_and hp.answer hnext.answer
  exact settles_of_step rfl
    ⟨n, fun m hm ctx => .branch_success ((hn m hm).1 _ _ _) ((hn m hm).2 _ _ _)⟩

/-- A chain whose first expression refuses settles on its failure. -/
theorem settles_chain_of_failure {next : α → Parser π ρ β} {r : NoSuccess}
    (hr : r.isFailure = true) (hp : p.Settles env c (.noSuccess r)) :
    (chain p next).Settles env c (.noSuccess r) := by
  obtain ⟨n, hn⟩ := hp.answer
  exact settles_of_step rfl ⟨n, fun m hm ctx => .chain_failure (hn m hm _ _ _) hr⟩

/-! ### Looking ahead -/

/-- Where an expression refuses, that it is not there is found without moving. -/
theorem Refuses.not (h : p.Refuses env c) : (Parser.not p).Settles env c (.success () c) := by
  obtain ⟨r, hr, hsettles⟩ := h
  obtain ⟨n, hn⟩ := hsettles.answer
  exact settles_of_step rfl ⟨n, fun m hm ctx => .branch_failure (hn m hm _ _ _) hr (.pure _)⟩

/-- Where an expression succeeds, that it is not there is refused. -/
theorem refuses_not_of_settles (h : p.Settles env c (.success a d)) :
    (Parser.not p).Refuses env c := by
  obtain ⟨n, hn⟩ := h.answer
  exact ⟨.failure (Parser.not p).describe (Cursor.location c), rfl, settles_of_step rfl
    ⟨n, fun m hm ctx => .branch_success (hn m hm _ _ _) (.pure _)⟩⟩

/-! ### Alternatives -/

/-- An optional expression settles on what is there. -/
theorem settles_optional (h : p.Settles env c (.success a d)) :
    (optional p).Settles env c (.success (some a) d) := by
  obtain ⟨n, hn⟩ := h.answer
  exact settles_of_step rfl
    ⟨n, fun m hm ctx => .branch_success (.map_success some (hn m hm _ _ _)) (.pure _)⟩

/-- An optional expression settles on nothing where nothing is there. -/
theorem Refuses.optional (h : p.Refuses env c) :
    (optional p).Settles env c (.success none c) := by
  obtain ⟨r, hr, hsettles⟩ := h
  obtain ⟨n, hn⟩ := hsettles.answer
  exact settles_of_step rfl
    ⟨n, fun m hm ctx => .branch_failure (.chain_failure (hn m hm _ _ _) hr) hr (.pure _)⟩

/-- An expression with a default settles on what is there. -/
theorem SettlesIn.orElse {shown : String} {default : α}
    (h : p.SettlesIn env S c (.success a d)) :
    (orElse shown default p).SettlesIn env S c (.success a d) := by
  obtain ⟨n, hn⟩ := h.answer
  exact settlesIn_of_step rfl
    ⟨n, fun m hm ctx hS => .branch_success (hn m hm _ _ _ hS) (.pure _)⟩

/-- An expression with a default settles on the default where nothing is there. -/
theorem RefusesIn.orElse {shown : String} {default : α} (h : p.RefusesIn env S c) :
    (orElse shown default p).SettlesIn env S c (.success default c) := by
  obtain ⟨r, hr, hsettles⟩ := h
  obtain ⟨n, hn⟩ := hsettles.answer
  exact settlesIn_of_step rfl
    ⟨n, fun m hm ctx hS => .branch_failure (hn m hm _ _ _ hS) hr (.pure _)⟩

/-- A name changes no success. -/
theorem SettlesIn.named {name : String} (h : p.SettlesIn env S c (.success a d)) :
    (named name p).SettlesIn env S c (.success a d) := by
  obtain ⟨n, hn⟩ := h.answer
  exact settlesIn_of_step rfl
    ⟨n, fun m hm ctx hS => .branch_success (hn m hm _ _ _ hS) (.pure _)⟩

/-- A name changes what was expected, and no refusal. -/
theorem RefusesIn.named {name : String} (h : p.RefusesIn env S c) :
    (named name p).RefusesIn env S c := by
  obtain ⟨r, hr, hsettles⟩ := h
  obtain ⟨n, hn⟩ := hsettles.answer
  exact ⟨r.expecting name, hr, settlesIn_of_step rfl
    ⟨n, fun m hm ctx hS => .branch_failure (hn m hm _ _ _ hS) hr (.pure _)⟩⟩

/-- A choice between two settles on the success of the first one. -/
theorem SettlesIn.or {p q : Parser π ρ α} (h : p.SettlesIn env S c (.success a d)) :
    (or p q).SettlesIn env S c (.success a d) := by
  obtain ⟨n, hn⟩ := h.answer
  exact settlesIn_of_step rfl
    ⟨n, fun m hm ctx hS => .branch_success (hn m hm _ _ _ hS) (.pure _)⟩

/-- A choice between two settles on what the second one does where the first one refuses. -/
theorem RefusesIn.or {p q : Parser π ρ α} (hp : p.RefusesIn env S c)
    (hq : q.SettlesIn env S c o) : (or p q).SettlesIn env S c o := by
  obtain ⟨r, hr, hsettles⟩ := hp
  obtain ⟨n, hn⟩ := exists_le_and hsettles.answer hq.answer
  exact settlesIn_of_step rfl ⟨n, fun m hm ctx hS =>
    .branch_failure ((hn m hm).1 _ _ _ hS) hr ((hn m hm).2 _ _ _ hS)⟩

/-! ### Choice -/

section Choice

variable {ps : List (Parser π ρ α)}

/-- A choice among the parsers of a list tries what runs them, one by one. -/
theorem step_choiceOf {m : Type → Type} [Monad m] [Halting m] {fuel : Nat} {ctx : Context π ρ}
    {run : {β : Type} → Scope π ρ → Origin → Parser π ρ β → Recognizer m C β} :
    (choiceOf ps).step env fuel run ctx = Recognizer.choice (ps.map (run ctx.scope .same)) := by
  have hmap : ps.map (run ctx.scope .same) = List.ofFn (run ctx.scope .same ∘ ps.get) := by
    rw [← List.map_ofFn, List.ofFn_get]
  rw [hmap]
  rfl

/-- A choice among nothing refuses. -/
theorem refuses_choiceOf_nil (c : C) : (choiceOf ([] : List (Parser π ρ α))).Refuses env c :=
  ⟨_, rfl, settles_of_step rfl ⟨0, fun _ _ _ => .pure _⟩⟩

/-- The only alternative is run as it is. -/
theorem settlesIn_choiceOf_singleton (h : p.SettlesIn env S c o) :
    (choiceOf [p]).SettlesIn env S c o := by
  obtain ⟨n, hn⟩ := h.answer
  refine settlesIn_of_step rfl ⟨n, fun m hm ctx hS => ?_⟩
  rw [step_choiceOf]
  exact hn m hm _ _ _ hS

/-- A choice settles on the success of its head. -/
theorem settlesIn_choiceOf_head (h : p.SettlesIn env S c (.success a d)) :
    (choiceOf (p :: ps)).SettlesIn env S c (.success a d) := by
  cases ps with
  | nil => exact settlesIn_choiceOf_singleton h
  | cons q ps =>
    obtain ⟨n, hn⟩ := h.answer
    refine settlesIn_of_step rfl ⟨n, fun m hm ctx hS => ?_⟩
    rw [step_choiceOf]
    exact .branch_success (hn m hm _ _ _ hS) (.pure _)

/-- A choice goes on behind an alternative that refuses. -/
theorem RefusesIn.choiceOf_cons {q : Parser π ρ α} (hp : p.RefusesIn env S c)
    (h : (choiceOf (q :: ps)).SettlesIn env S c o) :
    (choiceOf (p :: q :: ps)).SettlesIn env S c o := by
  obtain ⟨r, hr, hsettles⟩ := hp
  obtain ⟨n, hn⟩ := exists_le_and hsettles.answer ((settlesIn_iff_step rfl).mp h)
  refine settlesIn_of_step rfl ⟨n, fun m hm ctx hS => ?_⟩
  obtain ⟨hhead, hlater⟩ := hn m hm
  have hlater := hlater ctx hS
  rw [step_choiceOf] at hlater ⊢
  exact .branch_failure (hhead _ _ _ hS) hr hlater

/-- A choice refuses where its head and the others do. -/
theorem RefusesIn.choiceOf (hp : p.RefusesIn env S c) (h : (choiceOf ps).RefusesIn env S c) :
    (choiceOf (p :: ps)).RefusesIn env S c := by
  cases ps with
  | nil =>
    obtain ⟨r, hr, hsettles⟩ := hp
    exact ⟨r, hr, settlesIn_choiceOf_singleton hsettles⟩
  | cons q ps =>
    obtain ⟨r, hr, hsettles⟩ := h
    exact ⟨r, hr, hp.choiceOf_cons hsettles⟩

/-- A choice settles on the success of an alternative if those in front of it refuse. -/
theorem settlesIn_choiceOf_append {before after : List (Parser π ρ α)}
    (hbefore : ∀ q ∈ before, q.RefusesIn env S c) (h : p.SettlesIn env S c (.success a d)) :
    (choiceOf (before ++ p :: after)).SettlesIn env S c (.success a d) := by
  induction before with
  | nil => exact settlesIn_choiceOf_head h
  | cons q before ih =>
    obtain ⟨hq, hbefore⟩ := List.forall_mem_cons.mp hbefore
    have hlater := ih hbefore
    cases before with
    | nil => exact hq.choiceOf_cons hlater
    | cons q' before => exact hq.choiceOf_cons hlater

/-- A choice settles on the success of its head, in any scope. -/
theorem settles_choiceOf_head (h : p.Settles env c (.success a d)) :
    (choiceOf (p :: ps)).Settles env c (.success a d) :=
  settlesIn_true.mp (settlesIn_choiceOf_head h.settlesIn)

/-- A choice settles on what the others do where its head refuses, in any scope. -/
theorem Refuses.settles_choiceOf_tail (hp : p.Refuses env c)
    (h : (choiceOf ps).Settles env c (.success a d)) :
    (choiceOf (p :: ps)).Settles env c (.success a d) := by
  cases ps with
  | nil =>
    obtain ⟨r, -, hr⟩ : (choiceOf ([] : List (Parser π ρ α))).Refuses env c :=
      refuses_choiceOf_nil c
    cases h.unique hr
  | cons q ps => exact settlesIn_true.mp (hp.refusesIn.choiceOf_cons h.settlesIn)

/-- A choice refuses where its head and the others do, in any scope. -/
theorem Refuses.refuses_choiceOf (hp : p.Refuses env c) (h : (choiceOf ps).Refuses env c) :
    (choiceOf (p :: ps)).Refuses env c :=
  refusesIn_true.mp (hp.refusesIn.choiceOf h.refusesIn)

end Choice

/-! ### Repetition -/

/-- Whether every loop over an expression comes to some values once it may be long and deep
enough. -/
def Repeats (env : Environment π ρ) (p : Parser π ρ α) (c : C) (as : List α) (e : C) : Prop :=
  ∃ n, ∀ m, n ≤ m → ∀ k, n ≤ k → ∀ build scope,
    (openEnded (Parser.answer env m build scope .same p) k c).Gives (.success as e)

/-- A loop over what refuses comes to nothing. -/
theorem Refuses.repeats (h : p.Refuses env c) : p.Repeats env c [] c := by
  obtain ⟨r, hr, hsettles⟩ := h
  obtain ⟨n, hn⟩ := hsettles.answer
  refine ⟨n + 1, fun m hm k hk build scope => ?_⟩
  obtain ⟨k, rfl⟩ := Nat.exists_eq_add_of_le' (Nat.le_trans (Nat.le_add_left 1 n) hk)
  exact .openEnded_nil k (hn m (Nat.le_of_succ_le hm) _ _ _) hr

/-- A loop comes to one value more if one more is read in front, and the place has moved. -/
theorem Repeats.cons {as : List α} (hp : p.Settles env c (.success a d))
    (hmoved : Cursor.position d ≠ Cursor.position c) (h : p.Repeats env d as e) :
    p.Repeats env c (a :: as) e := by
  obtain ⟨n, hn⟩ := hp.answer
  obtain ⟨l, hl⟩ := h
  refine ⟨max n l + 1, fun m hm k hk build scope => ?_⟩
  obtain ⟨k, rfl⟩ := Nat.exists_eq_add_of_le' (Nat.le_trans (Nat.le_add_left 1 _) hk)
  have hm' : max n l ≤ m := Nat.le_of_succ_le hm
  have hk' : l ≤ k := Nat.le_trans (Nat.le_max_right n l) (Nat.le_of_succ_le_succ hk)
  refine .openEnded_cons (hn m (Nat.le_trans (Nat.le_max_left n l) hm') _ _ _) hmoved ?_
  exact hl m (Nat.le_trans (Nat.le_max_right n l) hm') k hk' build scope

/-- Reading any number of times settles on what loops come to. -/
theorem Repeats.settles_many {as : List α} (h : p.Repeats env c as e) :
    (many p).Settles env c (.success as e) := by
  obtain ⟨n, hn⟩ := h
  refine settles_of_step rfl ⟨n, fun m hm ctx => ?_⟩
  change (Recognizer.many m (Parser.answer env m ctx.build ctx.scope .same p) c).Gives _
  rw [many_eq]
  exact hn m hm m hm _ _

/-! ### Elements with separators -/

/-- Whether every loop over pairs of a separator and an element comes to some pairs once it may be
long and deep enough. -/
def PairsIn (env : Environment π ρ) (S : Scope π ρ → Prop) (separator : Parser π ρ β)
    (element : Parser π ρ α) (c : C) (xs : List (β × α)) (e : C) : Prop :=
  ∃ n, ∀ m, n ≤ m → ∀ k, n ≤ k → ∀ build scope, S scope →
    (pairs (Parser.answer env m build scope .same separator)
      (Parser.answer env m build scope .same element) k c).Gives (.success xs e)

/-- A loop over pairs comes to none where the separator refuses. -/
theorem RefusesIn.pairsIn (h : q.RefusesIn env S c) : PairsIn env S q p c [] c := by
  obtain ⟨r, hr, hsettles⟩ := h
  obtain ⟨n, hn⟩ := hsettles.answer
  refine ⟨n + 1, fun m hm k hk build scope hS => ?_⟩
  obtain ⟨k, rfl⟩ := Nat.exists_eq_add_of_le' (Nat.le_trans (Nat.le_add_left 1 n) hk)
  exact .pairs_nil k (hn m (Nat.le_of_succ_le hm) _ _ _ hS) hr

/-- A loop over pairs comes to one more if one more is read in front. -/
theorem PairsIn.cons {xs : List (β × α)} {f : C} (hq : q.SettlesIn env S c (.success b d))
    (hp : p.SettlesIn env S d (.success a e)) (h : PairsIn env S q p e xs f) :
    PairsIn env S q p c ((b, a) :: xs) f := by
  obtain ⟨n, hn⟩ := exists_le_and hq.answer hp.answer
  obtain ⟨l, hl⟩ := h
  refine ⟨max n l + 1, fun m hm k hk build scope hS => ?_⟩
  obtain ⟨k, rfl⟩ := Nat.exists_eq_add_of_le' (Nat.le_trans (Nat.le_add_left 1 _) hk)
  have hm' : max n l ≤ m := Nat.le_of_succ_le hm
  have hk' : l ≤ k := Nat.le_trans (Nat.le_max_right n l) (Nat.le_of_succ_le_succ hk)
  obtain ⟨hseparator, helement⟩ := hn m (Nat.le_trans (Nat.le_max_left n l) hm')
  refine .pairs_cons (hseparator _ _ _ hS) (helement _ _ _ hS) ?_
  exact hl m (Nat.le_trans (Nat.le_max_right n l) hm') k hk' build scope hS

/-- Elements with separators settle on the first one and the pairs behind it. -/
theorem PairsIn.joined {xs : List (β × α)} (hp : p.SettlesIn env S c (.success a d))
    (h : PairsIn env S q p d xs e) :
    (joined p q).SettlesIn env S c (.success (a, xs) e) := by
  obtain ⟨n, hn⟩ := hp.answer
  obtain ⟨l, hl⟩ := h
  refine settlesIn_of_step rfl ⟨max n l, fun m hm ctx hS => ?_⟩
  have hl' : l ≤ m := Nat.le_trans (Nat.le_max_right n l) hm
  exact .zip_success Prod.mk (hn m (Nat.le_trans (Nat.le_max_left n l) hm) _ _ _ hS)
    (hl m hl' m hl' _ _ hS)

/-- Elements with separators refuse where the first one does. -/
theorem RefusesIn.joined (h : p.RefusesIn env S c) : (joined p q).RefusesIn env S c := by
  obtain ⟨r, hr, hsettles⟩ := h
  obtain ⟨n, hn⟩ := hsettles.answer
  exact ⟨r, hr, settlesIn_of_step rfl
    ⟨n, fun m hm ctx hS => .chain_failure (hn m hm _ _ _ hS) hr⟩⟩

/-! ### Recursion -/

/-- The scopes in which a name stands for a body, such as those inside of the recursive parser with
that name and body. -/
def Within (name : String) (body : Parser π ρ ρ) (scope : Scope π ρ) : Prop :=
  ∃ inner build outer, scope.startingAt name = (inner, .live build body) :: outer

omit [Primitive π] in
/-- Inside of a recursive parser its name stands for its body. -/
theorem within_cons (name : String) (build : BuildId) (body : Parser π ρ ρ) (outer : Scope π ρ) :
    Within name body ((name, .live build body) :: outer) := by
  refine ⟨name, build, outer, ?_⟩
  rw [Scope.startingAt, List.dropWhile_cons_of_neg (by simp)]

variable {name : String} {body : Parser π ρ ρ} {o : Outcome C ρ}

/-- A name settles on what its body does where the name stands for the body. -/
theorem SettlesIn.self (h : body.SettlesIn env (Within name body) c o) :
    (self name).SettlesIn env (Within name body) c o := by
  obtain ⟨n, hn⟩ := h.answer
  refine settlesIn_of_step rfl ⟨n, fun m hm ctx hS => ?_⟩
  obtain ⟨inner, build, outer, hscope⟩ := hS
  rw [step_self, hscope]
  exact hn m hm _ _ _ (within_cons name build body outer)

/-- A name refuses where its body does. -/
theorem RefusesIn.self (h : body.RefusesIn env (Within name body) c) :
    (self name).RefusesIn env (Within name body) c := by
  obtain ⟨r, hr, hsettles⟩ := h
  exact ⟨r, hr, hsettles.self⟩

/-- A recursive parser settles on what its body does where the name stands for the body. -/
theorem SettlesIn.recursive (h : body.SettlesIn env (Within name body) c o) :
    (recursive name body).Settles env c o := by
  obtain ⟨n, hn⟩ := h.answer
  exact settles_of_step rfl
    ⟨n, fun m hm ctx => hn m hm _ _ _ (within_cons name ctx.build body ctx.scope)⟩

end Parser

end Parsing
