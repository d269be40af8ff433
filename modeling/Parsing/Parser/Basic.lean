import Parsing.Parser.Primitive
import Parsing.Recognizer.Joined
import Parsing.Recognizer.Repetition
import Parsing.Recognizer.Span

/-!
# Parsers

A `Parser π ρ α` is an expression: it says how to read a value of type `α`, in terms of primitive
parsers from the family `π` and of parsers that are known by name. The latter all have values of one
type `ρ`: rules of a grammar, the parser that a `recursive` one is inside of (`self`), and
definitions. What an expression does at a cursor is a matter of its run.

Every parser has a description, which messages use to say what was expected.
-/

namespace Parsing

/-- Identifies a rule among all rules of all grammars. -/
structure RuleId where
  number : Nat
  deriving DecidableEq

/-- A rule of a grammar, by which parsers refer to it. -/
structure Rule where
  id : RuleId
  name : String
  deriving DecidableEq

/-- An expression for a parser with values of type `α`. -/
inductive Parser (π : Type → Type) (ρ : Type) : Type → Type 1 where
  | primitive {α : Type} (p : π α) : Parser π ρ α
  /-- Succeeds with a value, whose text is `shown`. -/
  | success {α : Type} (shown : String) (value : α) : Parser π ρ α
  | fail {α : Type} (expected : String) : Parser π ρ α
  /-- Ends the whole parse with an error. -/
  | abort {α : Type} (expected : String) : Parser π ρ α
  | eof : Parser π ρ Unit
  | map {α β : Type} (f : α → β) (p : Parser π ρ α) : Parser π ρ β
  | zip {α β γ : Type} (f : α → β → γ) (p : Parser π ρ α) (q : Parser π ρ β) : Parser π ρ γ
  | sequence {α : Type} {n : Nat} (ps : Fin n → Parser π ρ α) : Parser π ρ (List α)
  /-- Runs a parser, then the one that its value asks for. -/
  | chain {α β : Type} (p : Parser π ρ α) (next : α → Parser π ρ β) : Parser π ρ β
  | or {α : Type} (p q : Parser π ρ α) : Parser π ρ α
  | choice {α : Type} {n : Nat} (ps : Fin n → Parser π ρ α) : Parser π ρ α
  | optional {α : Type} (p : Parser π ρ α) : Parser π ρ (Option α)
  /-- A value, or the given one, whose text is `shown`. -/
  | orElse {α : Type} (shown : String) (default : α) (p : Parser π ρ α) : Parser π ρ α
  | named {α : Type} (name : String) (p : Parser π ρ α) : Parser π ρ α
  | filter {α : Type} (accepts : α → Bool) (expected : String) (p : Parser π ρ α) : Parser π ρ α
  | lookahead {α : Type} (p : Parser π ρ α) : Parser π ρ α
  | not {α : Type} (p : Parser π ρ α) : Parser π ρ Unit
  | many {α : Type} (p : Parser π ρ α) : Parser π ρ (List α)
  | manyOne {α : Type} (p : Parser π ρ α) : Parser π ρ (List α)
  | repeated {α : Type} (range : CountRange) (p : Parser π ρ α) : Parser π ρ (List α)
  | joined {α β : Type} (element : Parser π ρ α) (separator : Parser π ρ β) :
      Parser π ρ (Interleaved α β)
  | withSpan {α : Type} (p : Parser π ρ α) : Parser π ρ (α × Span)
  /-- A parser that may refer to itself by a name. -/
  | recursive (name : String) (body : Parser π ρ ρ) : Parser π ρ ρ
  /-- The parser of that name around this place. -/
  | self (name : String) : Parser π ρ ρ
  /-- A parser that is built when it first runs. Builds are counted under `label`; `site` tells this
  place from others in the same expression. -/
  | defer (site : Nat) (label : String) (body : Parser π ρ ρ) : Parser π ρ ρ
  /-- A definition, likewise built when it first runs here. -/
  | define (site : Nat) (name : String) : Parser π ρ ρ
  | rule (r : Rule) : Parser π ρ ρ
  /-- Counts under a name how often the parser succeeds. -/
  | tally {α : Type} (name : String) (p : Parser π ρ α) : Parser π ρ α

namespace Parser

variable {π : Type → Type} {ρ α β γ : Type}

/-- What to expect where the parser stands. -/
def describe [Primitive π] {α : Type} : Parser π ρ α → String
  | .primitive p => Primitive.describe p
  | .success shown _ => s!"success({shown})"
  | .fail expected => s!"fail({expected})"
  | .abort expected => expected
  | .eof => "<EOF>"
  | .map _ p => p.describe
  | .zip _ p q => s!"{p.describe} {q.describe}"
  | .sequence ps => " ".intercalate (List.ofFn fun i => (ps i).describe)
  | .chain p _ => s!"{p.describe} >>= ..."
  | .or p q => s!"{p.describe} | {q.describe}"
  | .choice ps => "(" ++ " | ".intercalate (List.ofFn fun i => (ps i).describe) ++ ")"
  | .optional p => s!"({p.describe})?"
  | .orElse shown _ p => s!"({p.describe})? or {shown}"
  | .named name _ => name
  | .filter _ expected _ => expected
  | .lookahead p => s!"&{p.describe}"
  | .not p => s!"not {p.describe}"
  | .many p => s!"({p.describe})*"
  | .manyOne p => s!"({p.describe})+"
  | .repeated range p =>
    let greatest := (range.greatest?.map toString).getD ""
    s!"({p.describe})\x7b{range.least},{greatest}\x7d"
  | .joined p separator => s!"{p.describe} ({separator.describe} {p.describe})*"
  | .withSpan p => p.describe
  | .recursive _ _ => "<recursive>"
  | .self _ => "<recursive>"
  | .defer _ _ _ => "<deferred>"
  | .define _ _ => "<deferred>"
  | .rule r => r.name
  | .tally _ p => p.describe

end Parser

end Parsing
