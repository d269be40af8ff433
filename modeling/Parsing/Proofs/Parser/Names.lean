import Parsing.Proofs.Parser.Parts
import Parsing.Proofs.Parser.Refinement

/-!
# Names of recursive parsers

Inside of a recursive parser its name stands for it. `Parser.Mentions` tells which names an
expression expects from around it, `Parser.Binds` which one it gives a meaning itself, and
`Parser.substitute` puts an expression in place of a name. What an expression does depends on the
names that it mentions only: two scopes in which these stand for the same parsers, which in turn
mention names that do so, are `Scope.Alike` to it (`Scope.Alike.startingAt`).
-/

namespace Parsing

namespace Parser

variable {π : Type → Type} {ρ α : Type}

/-- Whether a name is mentioned outside of the recursive parsers that have it. -/
def Mentions (name : String) : {α : Type} → Parser π ρ α → Prop
  | _, .self label => label = name
  | _, .recursive label body => label ≠ name ∧ body.Mentions name
  | _, .map _ p | _, .optional p | _, .orElse _ _ p | _, .named _ p | _, .filter _ _ p
  | _, .lookahead p | _, .not p | _, .many p | _, .manyOne p | _, .repeated _ p | _, .withSpan p
  | _, .defer _ _ p | _, .tally _ p => p.Mentions name
  | _, .zip _ p q | _, .joined p q => p.Mentions name ∨ q.Mentions name
  | _, .or p q => p.Mentions name ∨ q.Mentions name
  | _, .sequence ps | _, .choice ps => ∃ i, (ps i).Mentions name
  | _, .chain p next => p.Mentions name ∨ ∃ a, (next a).Mentions name
  | _, .primitive _ | _, .success _ _ | _, .fail _ | _, .abort _ | _, .eof | _, .define _ _
  | _, .rule _ => False

/-- Whether an expression is a recursive parser of that name. -/
def Binds (name : String) : Parser π ρ α → Prop
  | .recursive label _ => label = name
  | _ => False

/-- The expression with others in place of the parts for which the function has one. It does not
look into what it replaces. -/
def rewrite (f : {α : Type} → Parser π ρ α → Option (Parser π ρ α)) :
    {α : Type} → Parser π ρ α → Parser π ρ α
  | _, e@(.map g p) => (f e).getD (.map g (rewrite f p))
  | _, e@(.zip g p q) => (f e).getD (.zip g (rewrite f p) (rewrite f q))
  | _, e@(.sequence ps) => (f e).getD (.sequence fun i => rewrite f (ps i))
  | _, e@(.chain p next) => (f e).getD (.chain (rewrite f p) fun a => rewrite f (next a))
  | _, e@(.or p q) => (f e).getD (.or (rewrite f p) (rewrite f q))
  | _, e@(.choice ps) => (f e).getD (.choice fun i => rewrite f (ps i))
  | _, e@(.optional p) => (f e).getD (.optional (rewrite f p))
  | _, e@(.orElse shown default p) => (f e).getD (.orElse shown default (rewrite f p))
  | _, e@(.named name p) => (f e).getD (.named name (rewrite f p))
  | _, e@(.filter accepts expected p) => (f e).getD (.filter accepts expected (rewrite f p))
  | _, e@(.lookahead p) => (f e).getD (.lookahead (rewrite f p))
  | _, e@(.not p) => (f e).getD (.not (rewrite f p))
  | _, e@(.many p) => (f e).getD (.many (rewrite f p))
  | _, e@(.manyOne p) => (f e).getD (.manyOne (rewrite f p))
  | _, e@(.repeated range p) => (f e).getD (.repeated range (rewrite f p))
  | _, e@(.joined element separator) =>
    (f e).getD (.joined (rewrite f element) (rewrite f separator))
  | _, e@(.withSpan p) => (f e).getD (.withSpan (rewrite f p))
  | _, e@(.recursive name body) => (f e).getD (.recursive name (rewrite f body))
  | _, e@(.defer site label body) => (f e).getD (.defer site label (rewrite f body))
  | _, e@(.tally name p) => (f e).getD (.tally name (rewrite f p))
  | _, e@(.primitive _) | _, e@(.success _ _) | _, e@(.fail _) | _, e@(.abort _) | _, e@.eof
  | _, e@(.self _) | _, e@(.define _ _) | _, e@(.rule _) => (f e).getD e

/-- What takes the place of a name. Where a recursive parser has that name it is left alone. -/
def inPlaceOf (name : String) (q : Parser π ρ ρ) : {α : Type} → Parser π ρ α → Option (Parser π ρ α)
  | _, .self label => if label = name then some q else none
  | _, .recursive label body => if label = name then some (.recursive label body) else none
  | _, _ => none

/-- The expression with another one in place of a name. -/
def substitute (name : String) (q : Parser π ρ ρ) (p : Parser π ρ α) : Parser π ρ α :=
  p.rewrite (inPlaceOf name q)

/-- What takes the place of a deferred parser if another one is built there. -/
def rebuiltBy (factory : Nat → String → Parser π ρ ρ → Parser π ρ ρ) :
    {α : Type} → Parser π ρ α → Option (Parser π ρ α)
  | _, .defer site label body => some (.defer site label (factory site label body))
  | _, _ => none

/-- An expression that gives no name a meaning mentions what its parts mention. -/
theorem eachPart_mentions {p : Parser π ρ α} (hp : p.isContextual = false) :
    p.EachPart fun q => ∀ name, q.Mentions name → p.Mentions name := by
  cases p with
  | zip | joined | or => exact ⟨fun _ => .inl, fun _ => .inr⟩
  | sequence | choice => exact fun i _ h => ⟨i, h⟩
  | chain => exact ⟨fun _ => .inl, fun a _ h => .inr ⟨a, h⟩⟩
  | primitive | success | fail | abort | eof => trivial
  | recursive | self | define | rule => cases hp
  | _ => exact fun _ => id

/-- Messages show nothing of a change that does not show in the descriptions of what is changed. -/
theorem describe_rewrite [Primitive π] {f : {α : Type} → Parser π ρ α → Option (Parser π ρ α)}
    (hf : ∀ {α : Type} (p q : Parser π ρ α), f p = some q → q.describe = p.describe)
    (p : Parser π ρ α) : (p.rewrite f).describe = p.describe := by
  have describe_getD {α : Type} {p q : Parser π ρ α} (h : q.describe = p.describe) :
      ((f p).getD q).describe = p.describe := by
    cases hp : f p with
    | none => exact h
    | some p' => exact hf p p' hp
  induction p with
  | recursive | defer | self | primitive | success | fail | abort | eof | define | rule =>
    exact describe_getD rfl
  | zip _ _ _ ihp ihq | joined _ _ ihp ihq | or _ _ ihp ihq =>
    exact describe_getD (by simp only [describe, ihp, ihq])
  | sequence _ ih | choice _ ih => exact describe_getD (by simp only [describe, ih])
  | chain _ _ ih _ => exact describe_getD (by simp only [describe, ih])
  | _ => exact describe_getD (by simp only [describe, *])

/-- A recursive parser shows no more of itself than its name does. -/
theorem describe_substitute [Primitive π] (name : String) {q : Parser π ρ ρ}
    (hq : q.describe = "<recursive>") (p : Parser π ρ α) :
    (substitute name q p).describe = p.describe := by
  refine describe_rewrite (fun p p' h => ?_) p
  cases p with
  | self label =>
    rw [inPlaceOf] at h
    split at h <;> cases h
    exact hq
  | recursive label body =>
    rw [inPlaceOf] at h
    split at h <;> cases h
    rfl
  | _ => cases h

/-- A deferred parser shows nothing of what is built for it. -/
theorem describe_rebuilt [Primitive π] (factory : Nat → String → Parser π ρ ρ → Parser π ρ ρ)
    (p : Parser π ρ α) : (p.rewrite (rebuiltBy factory)).describe = p.describe := by
  refine describe_rewrite (fun p p' h => ?_) p
  cases p with
  | defer site label body =>
    cases h
    rfl
  | _ => cases h

end Parser

namespace Scope

variable {π : Type → Type} {ρ : Type} {F G : String → Prop} {scope scope' : Scope π ρ}

/-- Whether the names that satisfy a condition stand for the same parsers in two scopes, and those
that the parsers mention do so as well. The second scope may have other names besides. -/
inductive Alike : (String → Prop) → Scope π ρ → Scope π ρ → Prop where
  | nil (F : String → Prop) : Alike F [] []
  | cons {F G : String → Prop} {label : String} {handle handle' : Handle π ρ}
    {scope scope' : Scope π ρ} (hbody : handle.body? = handle'.body?)
    (hF : ∀ name, F name → label ≠ name → G name)
    (hG : ∀ body, handle.body? = some body → ∀ name, (Parser.recursive label body).Mentions name →
      G name) (h : Alike G scope scope') :
    Alike F ((label, handle) :: scope) ((label, handle') :: scope')
  | skip {F : String → Prop} {label : String} {handle : Handle π ρ} {scope scope' : Scope π ρ}
    (hlabel : ¬ F label) (h : Alike F scope scope') : Alike F scope ((label, handle) :: scope')

/-- Names that mean the same do so if fewer are looked at. -/
theorem Alike.mono (h : Alike F scope scope') (hFG : ∀ name, G name → F name) :
    Alike G scope scope' := by
  induction h generalizing G with
  | nil F => exact .nil G
  | cons hbody hF hG h _ => exact .cons hbody (fun name hname => hF name (hFG name hname)) hG h
  | skip hlabel _ ih => exact .skip (mt (hFG _) hlabel) (ih hFG)

/-- Scopes that differ in builds only are alike to everything. -/
theorem alike_of_bodies (h : scope.bodies = scope'.bodies) : Alike F scope scope' := by
  induction scope generalizing F scope' with
  | nil =>
    cases scope' with
    | nil => exact .nil F
    | cons => cases h
  | cons entry scope ih =>
    cases scope' with
    | nil => cases h
    | cons entry' scope' =>
      obtain ⟨label, handle⟩ := entry
      obtain ⟨label', handle'⟩ := entry'
      obtain ⟨hentry, hscope⟩ := List.cons.inj h
      cases congrArg Prod.fst hentry
      exact .cons (congrArg Prod.snd hentry) (fun _ _ _ => trivial) (fun _ _ _ _ => trivial)
        (ih hscope)

/-- Inside of a recursive parser, what is alike to the whole is alike to its body. -/
theorem Alike.recursive {label : String} {build build' : BuildId} {body : Parser π ρ ρ}
    (h : Alike (Parser.recursive label body).Mentions scope scope') :
    Alike body.Mentions ((label, .live build body) :: scope)
      ((label, .live build' body) :: scope') := by
  refine .cons rfl (fun name hname hne => ⟨hne, hname⟩) (fun body' heq name hname => ?_) h
  cases heq
  exact hname

end Scope

end Parsing
