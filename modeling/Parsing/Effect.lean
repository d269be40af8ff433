/-!
# Runs that may stop

A run may stop without an outcome (`Halting`), and a parse keeps a state besides: what its memo
holds, which parsers were built (`Stateful`). `Effect σ α` does both: it ends with a value or a
`Halt`, and in either case with the state it reached, so that what was recorded before a stop is
still there after it.
-/

namespace Parsing

universe u

/-- Why a run ended without a value. -/
inductive Halt where
  /-- The bound on the depth of the run was reached. -/
  | outOfFuel
  /-- A rule was called that has no parser yet. -/
  | unboundRule (name : String)
  /-- A move by bytes did not end between two characters. -/
  | brokenCharacter
  deriving DecidableEq

/-- The halt in words. -/
def Halt.message : Halt → String
  | .outOfFuel => "the run is deeper than its bound"
  | .unboundRule name => s!"rule `{name}` invoked before it was bound"
  | .brokenCharacter => "a move by bytes did not end between two characters"

/-- Runs that can stop. -/
class Halting (m : Type → Type u) where
  halt {α : Type} : Halt → m α

export Halting (halt)

/-- Runs that keep a state of type `σ`. -/
class Stateful (σ : Type) (m : Type → Type u) where
  /-- Changes the state and gives a value. -/
  update {α : Type} : (σ → α × σ) → m α

export Stateful (update)

/-- Runs where nothing follows on a stop. -/
class Halting.Lawful (m : Type → Type u) [Monad m] [Halting m] : Prop extends LawfulMonad m where
  halt_bind {α β : Type} (h : Halt) (f : α → m β) : halt h >>= f = halt h

instance : Halting (Except Halt) := ⟨.error⟩

/-- What a stateless run does, within another kind of run. -/
def ofExcept {m : Type → Type u} [Monad m] [Halting m] {α : Type} : Except Halt α → m α
  | .ok a => pure a
  | .error h => halt h

/-- A run from a state of type `σ`. -/
structure Effect (σ α : Type) where
  run : σ → Except Halt α × σ

namespace Effect

variable {σ α β : Type}

/-- Two computations are the same if they do the same from every state. -/
@[ext] theorem ext {x y : Effect σ α} (h : ∀ s, x.run s = y.run s) : x = y := by
  cases x; cases y
  exact congrArg mk (funext h)

instance : Monad (Effect σ) where
  pure a := ⟨fun s => (.ok a, s)⟩
  bind x f := ⟨fun s =>
    match x.run s with
    | (.ok a, s) => (f a).run s
    | (.error h, s) => (.error h, s)⟩

/-- Stops, keeping the state. -/
instance : Halting (Effect σ) := ⟨fun h => ⟨fun s => (.error h, s)⟩⟩

instance : Stateful σ (Effect σ) :=
  ⟨fun f => ⟨fun s => let (a, s) := f s; (.ok a, s)⟩⟩

@[simp] theorem run_pure (a : α) (s : σ) : (pure a : Effect σ α).run s = (.ok a, s) := rfl

/-- The second part of a sequence runs from the state that the first part has left, unless that
halts. -/
theorem run_bind (x : Effect σ α) (f : α → Effect σ β) (s : σ) :
    (x >>= f).run s =
      match x.run s with
      | (.ok a, s) => (f a).run s
      | (.error h, s) => (.error h, s) := rfl

@[simp] theorem run_halt (h : Halt) (s : σ) : (halt h : Effect σ α).run s = (.error h, s) := rfl

@[simp] theorem run_update (f : σ → α × σ) (s : σ) :
    (update f : Effect σ α).run s = (.ok (f s).1, (f s).2) := rfl

/-- Mapping the identity changes nothing. -/
theorem id_map_eq (x : Effect σ α) : id <$> x = x := by
  apply Effect.ext
  intro s
  change (match x.run s with
    | (.ok a, s) => (.ok (id a), s)
    | (.error h, s) => (.error h, s)) = x.run s
  rcases x.run s with ⟨_ | _, _⟩ <;> rfl

/-- Sequences may be grouped either way. -/
theorem bind_assoc_eq {γ : Type} (x : Effect σ α) (f : α → Effect σ β) (g : β → Effect σ γ) :
    x >>= f >>= g = x >>= fun a => f a >>= g := by
  apply Effect.ext
  intro s
  simp only [run_bind]
  rcases x.run s with ⟨_ | _, _⟩ <;> rfl

instance : LawfulMonad (Effect σ) :=
  LawfulMonad.mk' _ id_map_eq (fun _ _ => rfl) bind_assoc_eq

instance : Halting.Lawful (Effect σ) :=
  ⟨fun _ _ => rfl⟩

end Effect

end Parsing
