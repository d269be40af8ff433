/-!
# Associativity

How an operator groups with operands and with others of its kind.
-/

namespace Parsing

/-- A number of operands. -/
inductive Arity where
  | unary
  | binary
  deriving DecidableEq

/-- The arity in words. -/
def Arity.text : Arity → String
  | .unary => "unary"
  | .binary => "binary"

/-- How an operator groups. -/
inductive Associativity where
  | left
  | right
  /-- Between two operands, but not in a row. -/
  | none
  /-- In front of its only operand. -/
  | before
  /-- Behind its only operand. -/
  | after
  deriving DecidableEq

namespace Associativity

/-- The associativity in words. -/
def text : Associativity → String
  | .left => "left"
  | .right => "right"
  | .none => "non-associative"
  | .before => "prefix"
  | .after => "postfix"

/-- How many operands there are. -/
def arity : Associativity → Arity
  | .before | .after => .unary
  | .left | .right | .none => .binary

/-- Whether there is only one operand. -/
def isUnary (a : Associativity) : Bool :=
  a.arity = .unary

/-- Among operators of one priority, those of a lower rank bind tighter. -/
def rank : Associativity → Nat
  | .after => 0
  | .before => 1
  | .none => 2
  | .right => 3
  | .left => 4

end Associativity

end Parsing
