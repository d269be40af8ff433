import Parsing.BuildError
import Parsing.Parser.Run
import Parsing.Shown

/-!
# Grammars

A grammar is a set of rules. Each is declared by name, so that parsers can refer to it, and bound to
its parser later. Finishing a grammar whose rules are all bound gives the parser of a start rule.

A `Registry` knows the rules of all grammars. The rules of a grammar live as long as the grammar or
the parser that it was finished to: afterwards they are dropped, and their handles lead nowhere.
-/

namespace Parsing

/-- A rule is shown by its name. -/
instance : Shown Rule where
  text r := s!"Rule \x7b name: {Shown.text r.name} \x7d"

/-- What the registry knows of a rule. -/
structure RuleSlot (π : Type → Type) (ρ : Type) where
  name : String
  packrat : Bool
  /-- The parser of the rule, once there is one. -/
  body : Option (BuildId × Parser π ρ ρ) := none
  dropped : Bool := false

/-- The rules of all grammars, by number. -/
structure Registry (π : Type → Type) (ρ : Type) where
  slots : List (RuleSlot π ρ) := []

namespace Registry

variable {π : Type → Type} {ρ : Type}

/-- What a rule stands for. -/
def binding (reg : Registry π ρ) (r : RuleId) : Binding π ρ :=
  match reg.slots[r.number]? with
  | none => .dropped
  | some slot =>
    if slot.dropped then .dropped
    else match slot.body with
      | none => .unbound
      | some (build, body) => .bound slot.packrat build body

/-- Changes what is known of a rule. -/
def modify (reg : Registry π ρ) (r : RuleId) (f : RuleSlot π ρ → RuleSlot π ρ) :
    Registry π ρ :=
  ⟨reg.slots.modify r.number f⟩

/-- Drops rules. -/
def drop (reg : Registry π ρ) (rules : List Rule) : Registry π ρ :=
  rules.foldl (fun reg r => reg.modify r.id fun slot => { slot with dropped := true }) reg

/-- Gives a rule its parser. -/
def bind (reg : Registry π ρ) (r : Rule) (build : BuildId) (body : Parser π ρ ρ) :
    Except BuildError (Registry π ρ) :=
  match reg.binding r.id with
  | .unbound => .ok (reg.modify r.id fun slot => { slot with body := some (build, body) })
  | .dropped | .bound _ _ _ => .error (.alreadyBound r.name)

/-- Whether a rule has its parser. -/
def isBound (reg : Registry π ρ) (r : Rule) : Bool :=
  match reg.binding r.id with
  | .bound _ _ _ => true
  | .dropped | .unbound => false

end Registry

/-- A grammar under construction: its rules in the order of their declaration. -/
structure Grammar where
  /-- Whether the rules keep memos. -/
  packrat : Bool := false
  rules : List Rule := []

/-- A finished grammar. -/
structure GrammarParser where
  start : Rule
  rules : List Rule
  /-- The input of the last parse. -/
  lastInput : Option InputId := none

namespace Grammar

variable {π : Type → Type} {ρ : Type}

/-- Declares a rule under a name that the grammar does not have yet. -/
def declare (g : Grammar) (name : String) (reg : Registry π ρ) :
    Except BuildError (Rule × Grammar × Registry π ρ) :=
  if g.rules.any fun r => r.name = name then .error (.duplicateRule name)
  else
    let rule : Rule := ⟨⟨reg.slots.length⟩, name⟩
    .ok (rule, { g with rules := g.rules ++ [rule] },
      ⟨reg.slots ++ [{ name, packrat := g.packrat }]⟩)

/-- The parser of a start rule, if all rules of the grammar are bound. -/
def finish (g : Grammar) (start : Rule) (reg : Registry π ρ) : Except BuildError GrammarParser :=
  match g.rules.filter fun r => !reg.isBound r with
  | [] => .ok { start, rules := g.rules }
  | unbound => .error (.unbound (unbound.map (·.name)))

end Grammar

namespace GrammarParser

variable {C ρ : Type}

/-- Forgets what the rules remember. -/
def clearMemo (g : GrammarParser) (s : Session C ρ) : Session C ρ :=
  g.rules.foldl (fun s r => s.setMemo r.id (s.memo r.id).clear) s

/-- The number of results that the rules remember. -/
def memoLength (g : GrammarParser) (s : Session C ρ) : Nat :=
  g.rules.foldr (fun r n => (s.memo r.id).entries.size + n) 0

/-- Turns to an input; what is remembered of another one is forgotten. -/
def enter (g : GrammarParser) (input : InputId) (s : Session C ρ) : GrammarParser × Session C ρ :=
  ({ g with lastInput := some input },
    if g.lastInput = some input then s else g.clearMemo s)

variable {π : Type → Type} {T : Type} [Cursor C T] [Primitive π] [Primitive.Runs π C]

/-- Parses from a cursor by the start rule. -/
def parse (g : GrammarParser) (env : Environment π ρ) (fuel : Nat) (c : C) (s : Session C ρ) :
    Except Halt (Outcome C ρ) × GrammarParser × Session C ρ :=
  let (g, s) := g.enter (Cursor.input c) s
  let (result, s) := (Parser.rule g.start).run env fuel {} c s
  (result, g, s)

end GrammarParser

end Parsing
