import Parsing.Parser.Run
import Parsing.Proofs.Parser.Parts
import Parsing.Proofs.Recognizer.Simulation

/-!
# One step of an expression, side by side

If two sides run the parts of an expression in related ways, then what they make of them in one step
is related, whatever the expression is a combination of (`Simulation.related_step`).
-/

namespace Parsing.Simulation

open Parsing.Parser Recognizer

universe u v

variable {m : Type → Type u} {n : Type → Type v} [Monad m] [Monad n] [Halting m] [Halting n]
  [Halting.Lawful m] [Halting.Lawful n] {π : Type → Type} {C D T U ρ : Type} [Cursor C T]
  [Cursor D U] [Primitive π] [Primitive.Runs π C] [Primitive.Runs π D] {K : Correspondence C D}

/-- Related steps inside lead to related steps: one case for each kind of expression. -/
theorem related_step (S : Simulation m n K) {env env' : Environment π ρ} {fuel fuel' : Nat}
    {run : {β : Type} → Scope π ρ → Origin → Parser π ρ β → Recognizer m C β}
    {run' : {β : Type} → Scope π ρ → Origin → Parser π ρ β → Recognizer n D β}
    {ctx ctx' : Context π ρ} {α : Type} {p : Parser π ρ α} (hp : p.isCombination = true)
    (parts : p.EachPart fun q =>
      ∀ origin, S.Related (run ctx.scope origin q) (run' ctx'.scope origin q))
    (loops : p.EachPart fun q =>
      S.Related (openEnded (run ctx.scope .same q) fuel)
        (openEnded (run' ctx'.scope .same q) fuel')) :
    S.Related (p.step env fuel run ctx) (p.step env' fuel' run' ctx') := by
  cases p with
  | success _ value => exact S.related_succeed value
  | fail expected => exact S.related_fail expected
  | eof => exact S.related_eof
  | map f p => exact S.related_map f (parts .same)
  | zip f p q => exact S.related_zip f (parts.1 .same) (parts.2 .same)
  | sequence ps => exact S.related_sequence fun i => parts i .same
  | chain p next => exact S.related_chain (parts.1 .same) fun a => parts.2 a .new
  | or p q => exact S.related_or (parts.1 .same) (parts.2 .same)
  | choice ps => exact S.related_choice fun i => parts i .same
  | optional p => exact S.related_optional (parts .same)
  | orElse _ default p => exact S.related_orElse default (parts .same)
  | named name p => exact S.related_named name (parts .same)
  | filter accepts expected p => exact S.related_filter accepts expected (parts .same)
  | lookahead p => exact S.related_lookahead (parts .same)
  | not p => exact S.related_not p.not.describe (parts .same)
  | many p => exact S.related_many loops
  | manyOne p => exact S.related_manyOne (parts .same) loops
  | repeated range p => exact S.related_repeated range (parts .same) loops
  | defer site label body => exact parts (.deferred site label)
  | tally _ p => exact parts .same
  | primitive | abort | joined | withSpan | recursive | self | define | rule => cases hp

section Identity

variable {P : C → Prop} (S : Simulation m n (.identity P)) {env : Environment π ρ}
  {fuel fuel' : Nat}
  {run : {β : Type} → Scope π ρ → Origin → Parser π ρ β → Recognizer m C β}
  {run' : {β : Type} → Scope π ρ → Origin → Parser π ρ β → Recognizer n C β}
  {ctx ctx' : Context π ρ} {α : Type}

/-- Where the two sides read the same input and run the parts of an expression in related ways, only
primitive parsers, aborts, the ends of loops and what depends on the context are left. -/
theorem related_step_of_parts {p : Parser π ρ α} (hfuel : fuel ≤ fuel')
    (parts : p.isContextual = false → p.EachPart fun q =>
      ∀ origin, S.Related (run ctx.scope origin q) (run' ctx'.scope origin q))
    (context : p.isContextual = true →
      S.Related (p.step env fuel run ctx) (p.step env fuel' run' ctx'))
    (primitive : ∀ {β : Type} (q : π β), S.Related
      (fun c => ofExcept (Primitive.Runs.parse q c)) fun c => ofExcept (Primitive.Runs.parse q c))
    (abort : ∀ {β : Type} expected, S.Related (Recognizer.abort (α := β) expected)
      (Recognizer.abort expected))
    (stop : ∀ {β : Type} (y : n (Outcome C β)), (fuel = fuel' → y = halt .outOfFuel) →
      S.rel (halt .outOfFuel) y) :
    S.Related (p.step env fuel run ctx) (p.step env fuel' run' ctx') := by
  obtain ⟨l, rfl⟩ := Nat.exists_eq_add_of_le hfuel
  induction p using forms with
  | combination p hp =>
    have parts := parts (isContextual_of_isCombination hp)
    refine S.related_step hp parts (parts.imp fun q hq => ?_)
    refine S.related_openEnded (hq .same) fuel fun c d _ => stop _ fun h => ?_
    have hl : l = 0 := by omega
    rw [hl]
    rfl
  | contextual p hp => exact context hp
  | primitive p => exact primitive p
  | abort expected => exact abort expected
  | joined element separator =>
    obtain ⟨helement, hseparator⟩ := parts rfl
    refine S.related_joined (helement .same)
      (S.related_pairs (helement .same) (hseparator .same) fuel fun c d _ => ?_)
    refine stop _ fun h => ?_
    -- with the same bound on both sides the loops end in the same round
    have hl : l = 0 := by omega
    rw [hl]
    rfl
  | withSpan p => exact S.related_withSpan (parts rfl .same) Correspondence.between_eq_of_identity

/-- So it is in particular where they run all expressions in related ways. -/
theorem related_step_of_identity {p : Parser π ρ α} (hfuel : fuel ≤ fuel')
    (ask : ∀ {β : Type} (q : Parser π ρ β) origin,
      S.Related (run ctx.scope origin q) (run' ctx'.scope origin q))
    (context : p.isContextual = true →
      S.Related (p.step env fuel run ctx) (p.step env fuel' run' ctx'))
    (primitive : ∀ {β : Type} (q : π β), S.Related
      (fun c => ofExcept (Primitive.Runs.parse q c)) fun c => ofExcept (Primitive.Runs.parse q c))
    (abort : ∀ {β : Type} expected, S.Related (Recognizer.abort (α := β) expected)
      (Recognizer.abort expected))
    (stop : ∀ {β : Type} (y : n (Outcome C β)), (fuel = fuel' → y = halt .outOfFuel) →
      S.rel (halt .outOfFuel) y) :
    S.Related (p.step env fuel run ctx) (p.step env fuel' run' ctx') :=
  S.related_step_of_parts hfuel (fun _ => eachPart_of_forall (fun q origin => ask q origin) p)
    context primitive abort stop

/-- Two sides that run expressions in related ways take related steps in the same context. -/
theorem related_step_of_ask (p : Parser π ρ α)
    (ask : ∀ {β : Type} scope origin (q : Parser π ρ β),
      S.Related (run scope origin q) (run' scope origin q))
    (primitive : ∀ {β : Type} (q : π β), S.Related
      (fun c => ofExcept (Primitive.Runs.parse q c)) fun c => ofExcept (Primitive.Runs.parse q c))
    (abort : ∀ {β : Type} expected, S.Related (Recognizer.abort (α := β) expected)
      (Recognizer.abort expected))
    (stop : ∀ {β : Type} h, S.rel (halt h : m (Outcome C β)) (halt h)) :
    S.Related (p.step env fuel run ctx) (p.step env fuel run' ctx) := by
  refine S.related_step_of_identity (Nat.le_refl fuel) (fun q origin => ask _ origin q) ?_
    primitive abort fun y hy => hy rfl ▸ stop .outOfFuel
  intro hp
  cases p with
  | recursive name body => exact ask _ .same body
  | self name =>
    rw [step_self, step_self]
    split
    · exact abort _
    · exact abort _
    · exact ask _ _ _
  | define site name => exact ask _ _ _
  | rule r =>
    rw [step_rule, step_rule]
    split
    · exact abort _
    · exact fun _ _ _ => stop _
    · exact ask _ _ _
  | _ => cases hp

end Identity

end Parsing.Simulation
