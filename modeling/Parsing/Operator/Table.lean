import Parsing.BuildError
import Parsing.Parser.Combinators

/-!
# Operator tables

A table lists operators around a common operand, each with a priority, an associativity and a
meaning. The operators are added one by one to the groups of their levels (`OperatorGroup.addAll`),
and the parser of the table is built of layers, one for each group: the innermost layer has the
greatest priority, and within one priority the levels go by the rank of their associativity. Every
layer is an ordinary parser over the one inside of it.
-/

namespace Parsing

/-- The priority of operators that name none. -/
def defaultPriority : Int := 7

/-- The meaning of an operator with values in `κ`, between or beside operands in `O`. -/
inductive Combiner (κ O : Type) where
  | binary (f : O → κ → O → O)
  | unary (f : κ → O → O)

namespace Combiner

variable {κ O : Type}

/-- A meaning that does not depend on the operator's value. -/
def ofBinary (f : O → O → O) : Combiner κ O :=
  .binary fun a _ b => f a b

/-- A meaning that does not depend on the operator's value. -/
def ofUnary (f : O → O) : Combiner κ O :=
  .unary fun _ a => f a

end Combiner

/-- A parser for an operator, whose value is what the operator does. -/
inductive Operator (π : Type → Type) (ρ O : Type) : Type 1 where
  | binary (p : Parser π ρ (O → O → O))
  | unary (p : Parser π ρ (O → O))

namespace Operator

variable {π : Type → Type} {ρ κ O : Type}

/-- Gives the values of a parser their meaning. -/
def ofCombiner (p : Parser π ρ κ) : Combiner κ O → Operator π ρ O
  | .binary f => .binary (.map (fun operator left right => f left operator right) p)
  | .unary f => .unary (.map f p)

def arity : Operator π ρ O → Arity
  | .binary _ => .binary
  | .unary _ => .unary

def binary? : Operator π ρ O → Option (Parser π ρ (O → O → O))
  | .binary p => some p
  | .unary _ => none

def unary? : Operator π ρ O → Option (Parser π ρ (O → O))
  | .binary _ => none
  | .unary p => some p

end Operator

/-- Where an operator stands among others. -/
structure Level where
  priority : Int
  associativity : Associativity
  deriving DecidableEq

namespace Level

/-- Whether operators of the one level bind tighter than those of the other. -/
def tighter (a b : Level) : Bool :=
  b.priority < a.priority ||
    (a.priority = b.priority && a.associativity.rank < b.associativity.rank)

end Level

/-- One operator of a table. -/
structure OperatorEntry (π : Type → Type) (ρ O : Type) where
  level : Level
  description : String
  operator : Operator π ρ O

namespace OperatorEntry

variable {π : Type → Type} {ρ κ O : Type}

/-- An operator with its meaning; its description is that of its parser. -/
def ofCombiner [Primitive π] (p : Parser π ρ κ) (priority : Int) (associativity : Associativity)
    (combiner : Combiner κ O) : OperatorEntry π ρ O :=
  ⟨⟨priority, associativity⟩, p.describe, .ofCombiner p combiner⟩

/-- Whether the meaning takes as many operands as the associativity. -/
def isConsistent (e : OperatorEntry π ρ O) : Bool :=
  e.operator.arity = e.level.associativity.arity

end OperatorEntry

/-- The operators of one level, in the order in which they were added. -/
structure OperatorGroup (π : Type → Type) (ρ O : Type) where
  level : Level
  operators : List (Operator π ρ O)

namespace OperatorGroup

variable {π : Type → Type} {ρ O : Type}

/-- Adds an operator to the group of its level, where groups go from tight to loose. A level without
a group gets one. -/
def add (e : OperatorEntry π ρ O) : List (OperatorGroup π ρ O) → List (OperatorGroup π ρ O)
  | [] => [⟨e.level, [e.operator]⟩]
  | g :: groups =>
    if e.level.tighter g.level then ⟨e.level, [e.operator]⟩ :: g :: groups
    else if g.level.tighter e.level then g :: add e groups
    else { g with operators := g.operators ++ [e.operator] } :: groups

/-- Adds operators to groups one by one, and stops at one that is not consistent. -/
def addAll : List (OperatorEntry π ρ O) → List (OperatorGroup π ρ O) →
    Except BuildError (List (OperatorGroup π ρ O))
  | [], groups => .ok groups
  | e :: entries, groups =>
    if e.isConsistent then addAll entries (add e groups)
    else .error (.combinerMismatch e.description e.operator.arity e.level.associativity)

end OperatorGroup

/-- Operators around a common operand. -/
structure OperatorTable (π : Type → Type) (ρ O : Type) where
  operand : Parser π ρ O
  entries : List (OperatorEntry π ρ O)

namespace OperatorTable

variable {π : Type → Type} {ρ O : Type}

/-- An operator between operands, grouped from the left. -/
def leftLayer (operand : Parser π ρ O) (operator : Parser π ρ (O → O → O)) : Parser π ρ O :=
  .zip (fun first rest => rest.foldl (fun left (apply, right) => apply left right) first)
    operand (.many (.and operator operand))

/-- An operator between operands, grouped from the right. -/
def rightLayer (operand : Parser π ρ O) (operator : Parser π ρ (O → O → O)) : Parser π ρ O :=
  .zip (fun rest last => rest.foldr (fun (left, apply) right => apply left right) last)
    (.many (.and operand operator)) operand

/-- An operator at most once between two operands. -/
def singleLayer (operand : Parser π ρ O) (operator : Parser π ρ (O → O → O)) : Parser π ρ O :=
  .zip (fun left rest =>
    match rest with
    | some (apply, right) => apply left right
    | none => left)
    operand (.optional (.and operator operand))

/-- Operators in front of an operand; the last one applies first. -/
def beforeLayer (operand : Parser π ρ O) (operator : Parser π ρ (O → O)) : Parser π ρ O :=
  .zip (fun applies value => applies.foldr (fun apply value => apply value) value)
    (.many operator) operand

/-- Operators behind an operand; the first one applies first. -/
def afterLayer (operand : Parser π ρ O) (operator : Parser π ρ (O → O)) : Parser π ρ O :=
  .zip (fun value applies => applies.foldl (fun value apply => apply value) value)
    operand (.many operator)

/-- The operators of one level around an operand. -/
def layer (associativity : Associativity) (operand : Parser π ρ O)
    (operators : List (Operator π ρ O)) : Parser π ρ O :=
  let binary := Parser.choiceOf (operators.filterMap Operator.binary?)
  let unary := Parser.choiceOf (operators.filterMap Operator.unary?)
  match associativity with
  | .left => leftLayer operand binary
  | .right => rightLayer operand binary
  | .none => singleLayer operand binary
  | .before => beforeLayer operand unary
  | .after => afterLayer operand unary

/-- The parser for operands with operators: a layer for each group, the tightest first, unless an
operator is not consistent. -/
def build (t : OperatorTable π ρ O) : Except BuildError (Parser π ρ O) :=
  if t.entries.isEmpty then .ok t.operand
  else
    (OperatorGroup.addAll t.entries []).map fun groups =>
      groups.foldl (fun operand g => layer g.level.associativity operand g.operators) t.operand

end OperatorTable

end Parsing
