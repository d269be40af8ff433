import Parsing.Parser.Basic

/-!
# The parts of an expression

The parts of an expression are those that stand directly inside of it; a chain has as its parts also
all expressions that it may go on with. What is asked of every part (`EachPart`) is a condition on
smaller expressions (`part_induction`), and a condition may be asked of an expression and of
everything inside of it (`All`).

Most expressions are combinations of their parts and of nothing else (`isCombination`). Of the
others some run what a name stands for in the context (`isContextual`): `forms` tells them apart.
-/

namespace Parsing.Parser

variable {π : Type → Type} {ρ : Type}

/-- Whether a condition holds of the expressions that stand directly inside of one. -/
def EachPart (P : ∀ {β : Type}, Parser π ρ β → Prop) {α : Type} : Parser π ρ α → Prop
  | .map _ p | .optional p | .orElse _ _ p | .named _ p | .filter _ _ p | .lookahead p | .not p
  | .many p | .manyOne p | .repeated _ p | .withSpan p | .recursive _ p | .defer _ _ p
  | .tally _ p => P p
  | .zip _ p q | .joined p q => P p ∧ P q
  | .or p q => P p ∧ P q
  | .sequence ps | .choice ps => ∀ i, P (ps i)
  | .chain p next => P p ∧ ∀ a, P (next a)
  | .primitive _ | .success _ _ | .fail _ | .abort _ | .eof | .self _
  | .define _ _ | .rule _ => True

/-- Whether a condition holds of an expression and of everything inside of it. -/
def All (P : ∀ {β : Type}, Parser π ρ β → Prop) {α : Type} : Parser π ρ α → Prop
  | e@(.map _ p) | e@(.optional p) | e@(.orElse _ _ p) | e@(.named _ p) | e@(.filter _ _ p)
  | e@(.lookahead p) | e@(.not p) | e@(.many p) | e@(.manyOne p) | e@(.repeated _ p)
  | e@(.withSpan p) | e@(.recursive _ p) | e@(.defer _ _ p) | e@(.tally _ p) => P e ∧ p.All P
  | e@(.zip _ p q) | e@(.joined p q) => P e ∧ p.All P ∧ q.All P
  | e@(.or p q) => P e ∧ p.All P ∧ q.All P
  | e@(.sequence ps) | e@(.choice ps) => P e ∧ ∀ i, (ps i).All P
  | e@(.chain p next) => P e ∧ p.All P ∧ ∀ a, (next a).All P
  | e@(.primitive _) | e@(.success _ _) | e@(.fail _) | e@(.abort _) | e@.eof | e@(.self _)
  | e@(.define _ _) | e@(.rule _) => P e

section

variable {P Q : ∀ {β : Type}, Parser π ρ β → Prop} {α : Type}

/-- What holds of everything inside of an expression holds of the expression. -/
theorem All.self {p : Parser π ρ α} (h : p.All P) : P p := by
  cases p <;> first | exact h | exact h.1

/-- What holds of everything inside of an expression holds of everything inside of its parts. -/
theorem All.eachPart {p : Parser π ρ α} (h : p.All P) : p.EachPart fun q => q.All P := by
  cases p <;> first | exact trivial | exact h.2

/-- What holds of all expressions holds of the parts of one. -/
theorem eachPart_of_forall (h : ∀ {β : Type} (q : Parser π ρ β), P q) (p : Parser π ρ α) :
    p.EachPart P := by
  cases p with
  | zip | joined | or => exact ⟨h _, h _⟩
  | sequence | choice => exact fun i => h _
  | chain => exact ⟨h _, fun a => h _⟩
  | primitive | success | fail | abort | eof | self | define | rule => trivial
  | _ => exact h _

/-- What the parts satisfy, and what follows from it for each, may be put together. -/
theorem EachPart.mp {p : Parser π ρ α} (hPQ : p.EachPart fun q => P q → Q q)
    (h : p.EachPart P) : p.EachPart Q := by
  cases p with
  | zip | joined | or => exact ⟨hPQ.1 h.1, hPQ.2 h.2⟩
  | sequence | choice => exact fun i => hPQ i (h i)
  | chain => exact ⟨hPQ.1 h.1, fun a => hPQ.2 a (h.2 a)⟩
  | primitive | success | fail | abort | eof | self | define | rule => trivial
  | _ => exact hPQ h

/-- A condition on the parts may be weakened. -/
theorem EachPart.imp {p : Parser π ρ α} (h : p.EachPart P)
    (hPQ : ∀ {β : Type} (q : Parser π ρ β), P q → Q q) : p.EachPart Q :=
  (eachPart_of_forall hPQ p).mp h

/-- What holds of an expression as soon as it holds of its parts holds of all expressions. -/
theorem part_induction (step : ∀ {α : Type} (p : Parser π ρ α), p.EachPart P → P p)
    (p : Parser π ρ α) : P p := by
  induction p with
  | zip _ _ _ ihp ihq | joined _ _ ihp ihq | or _ _ ihp ihq => exact step _ ⟨ihp, ihq⟩
  | sequence _ ih | choice _ ih => exact step _ ih
  | chain _ _ ihp ihnext => exact step _ ⟨ihp, ihnext⟩
  | primitive | success | fail | abort | eof | self | define | rule => exact step _ trivial
  | map _ _ ih | optional _ ih | orElse _ _ _ ih | named _ _ ih | filter _ _ _ ih
  | lookahead _ ih | not _ ih | many _ ih | manyOne _ ih | repeated _ _ ih | withSpan _ ih
  | recursive _ _ ih | defer _ _ _ ih | tally _ _ ih => exact step _ ih

/-- A condition on an expression and on everything inside of its parts is one on everything. -/
theorem all_of_eachPart {p : Parser π ρ α} (hself : P p) (h : p.EachPart fun q => q.All P) :
    p.All P := by
  cases p with
  | primitive | success | fail | abort | eof | self | define | rule => exact hself
  | _ => exact ⟨hself, h⟩

/-- A condition on everything inside may be weakened. -/
theorem All.imp {p : Parser π ρ α} (h : p.All P)
    (hPQ : ∀ {β : Type} (q : Parser π ρ β), P q → Q q) : p.All Q := by
  induction p using part_induction with
  | step p ih => exact all_of_eachPart (hPQ p h.self) (ih.mp h.eachPart)

/-- What holds of all expressions holds of everything inside of one. -/
theorem all_of_forall (h : ∀ {β : Type} (q : Parser π ρ β), P q) (p : Parser π ρ α) : p.All P := by
  induction p using part_induction with
  | step p ih => exact all_of_eachPart (h p) ih

end

/-- Whether an expression runs others by what their names stand for in the context. -/
def isContextual {α : Type} : Parser π ρ α → Bool
  | .recursive _ _ | .self _ | .define _ _ | .rule _ => true
  | _ => false

/-- Whether an expression is a combination of its parts, in the context that it stands in itself. -/
def isCombination {α : Type} : Parser π ρ α → Bool
  | .primitive _ | .abort _ | .joined _ _ | .withSpan _ => false
  | p => !p.isContextual

/-- A combination of parts needs no names to be run. -/
theorem isContextual_of_isCombination {α : Type} {p : Parser π ρ α} (h : p.isCombination = true) :
    p.isContextual = false := by
  cases p with
  | recursive | self | define | rule => cases h
  | _ => rfl

/-- An expression is a combination, or looks at its context, or is of one of four other forms. -/
@[elab_as_elim]
theorem forms {motive : ∀ {α : Type}, Parser π ρ α → Prop}
    (combination : ∀ {α : Type} (p : Parser π ρ α), p.isCombination = true → motive p)
    (contextual : ∀ {α : Type} (p : Parser π ρ α), p.isContextual = true → motive p)
    (primitive : ∀ {α : Type} (p : π α), motive (.primitive p))
    (abort : ∀ {α : Type} (expected : String), motive (.abort expected : Parser π ρ α))
    (joined : ∀ {α β : Type} (element : Parser π ρ α) (separator : Parser π ρ β),
      motive (.joined element separator))
    (withSpan : ∀ {α : Type} (p : Parser π ρ α), motive (.withSpan p)) {α : Type}
    (p : Parser π ρ α) : motive p := by
  cases p with
  | primitive p => exact primitive p
  | abort expected => exact abort expected
  | joined element separator => exact joined element separator
  | withSpan p => exact withSpan p
  | recursive | self | define | rule => exact contextual _ rfl
  | _ => exact combination _ rfl

end Parsing.Parser
