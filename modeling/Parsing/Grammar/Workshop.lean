import Parsing.Grammar.Basic

/-!
# Grammars under names

A `Workshop` keeps grammars by name, from their first declaration to the parser that they are
finished to, together with the rules of all of them and with what their parsers remember. A name
stands for one grammar at a time; when it comes to stand for another one, or for none, the rules of
the former are dropped. Operations on a name that stands for nothing suitable give `none`.
-/

namespace Parsing

/-- How far a grammar has come. -/
inductive Stage where
  | building (g : Grammar)
  | finished (g : GrammarParser)

/-- The rules of a grammar. -/
def Stage.rules : Stage → List Rule
  | .building g => g.rules
  | .finished g => g.rules

/-- Grammars by name. -/
structure Workshop (π : Type → Type) (C ρ : Type) where
  grammars : List (String × Stage) := []
  registry : Registry π ρ := {}
  session : Session C ρ := {}

namespace Workshop

variable {π : Type → Type} {C ρ : Type}

/-- Lets a name stand for a grammar. -/
def set (w : Workshop π C ρ) (name : String) (g : Stage) : Workshop π C ρ :=
  { w with grammars := (name, g) :: w.grammars.filter fun e => e.1 != name }

/-- Drops what a name stands for, and its rules with it. -/
def drop (w : Workshop π C ρ) (name : String) : Workshop π C ρ :=
  { w with
    grammars := w.grammars.filter fun e => e.1 != name
    registry := w.registry.drop (((w.grammars.lookup name).map Stage.rules).getD []) }

/-- Begins a grammar. -/
def start (w : Workshop π C ρ) (name : String) (packrat : Bool) : Workshop π C ρ :=
  (w.drop name).set name (.building { packrat })

/-- Declares a rule of a grammar. -/
def declare (w : Workshop π C ρ) (name rule : String) :
    Option (Except BuildError (Rule × Workshop π C ρ)) :=
  match w.grammars.lookup name with
  | some (.building g) => some <|
    match g.declare rule w.registry with
    | .ok (rule, g, registry) => .ok (rule, { w with registry }.set name (.building g))
    | .error e => .error e
  | _ => none

/-- Gives a rule its parser. -/
def bind (w : Workshop π C ρ) (r : Rule) (p : Parser π ρ ρ) :
    Except BuildError (Workshop π C ρ) :=
  let (build, session) := w.session.newBuild
  match w.registry.bind r build p with
  | .ok registry => .ok { w with registry, session }
  | .error e => .error e

/-- Finishes a grammar; one that cannot be finished is dropped. -/
def finish (w : Workshop π C ρ) (name : String) (start : Rule) :
    Option (Except BuildError GrammarParser × Workshop π C ρ) :=
  match w.grammars.lookup name with
  | some (.building g) => some <|
    match g.finish start w.registry with
    | .ok g => (.ok g, w.set name (.finished g))
    | .error e => (.error e, w.drop name)
  | _ => none

/-- The parser of a finished grammar. -/
def finished? (w : Workshop π C ρ) (name : String) : Option GrammarParser :=
  match w.grammars.lookup name with
  | some (.finished g) => some g
  | _ => none

/-- Forgets what the rules of a finished grammar remember. -/
def clearMemo (w : Workshop π C ρ) (name : String) : Option (Workshop π C ρ) :=
  (w.finished? name).map fun g => { w with session := g.clearMemo w.session }

/-- The number of results that the rules of a finished grammar remember. -/
def memoLength? (w : Workshop π C ρ) (name : String) : Option Nat :=
  (w.finished? name).map fun g => g.memoLength w.session

section Runs

variable {T : Type} [Cursor C T] [Primitive π] [Primitive.Runs π C]

/-- Parses by a finished grammar. -/
def parse (w : Workshop π C ρ) (name : String) (definition : String → Parser π ρ ρ) (fuel : Nat)
    (c : C) : Option (Except Halt (Outcome C ρ) × Workshop π C ρ) :=
  (w.finished? name).map fun g =>
    let (result, g, session) := g.parse ⟨w.registry.binding, definition⟩ fuel c w.session
    (result, { w with session }.set name (.finished g))

/-- Runs a parser that may refer to the rules. -/
def run (w : Workshop π C ρ) (p : Parser π ρ ρ) (definition : String → Parser π ρ ρ)
    (fuel : Nat) (c : C) : Except Halt (Outcome C ρ) × Workshop π C ρ :=
  let (build, session) := w.session.newBuild
  let (result, session) := p.run ⟨w.registry.binding, definition⟩ fuel { build } c session
  (result, { w with session })

end Runs

end Workshop

end Parsing
