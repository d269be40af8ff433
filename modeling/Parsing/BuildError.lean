import Parsing.Operator.Associativity

/-!
# Errors in building parsers

What can be wrong with a parser before it has run.
-/

namespace Parsing

/-- Why a parser could not be built. -/
inductive BuildError where
  | invalidPattern
  /-- The rule has a parser already, or is gone. -/
  | alreadyBound (name : String)
  | duplicateRule (name : String)
  /-- Rules without a parser. -/
  | unbound (names : List String)
  /-- The meaning of an operator takes another number of operands than its associativity. -/
  | combinerMismatch (operator : String) (combiner : Arity) (associativity : Associativity)
  deriving DecidableEq

/-- The error in words. -/
def BuildError.message : BuildError → String
  | .invalidPattern => "invalid pattern"
  | .alreadyBound name => s!"non-terminal `{name}` is already bound"
  | .duplicateRule name => s!"non-terminal `{name}` is declared more than once"
  | .unbound names => "non-terminals left unbound: " ++ ", ".intercalate names
  | .combinerMismatch operator combiner associativity =>
    s!"operator `{operator}` has a {combiner.text} combiner " ++
      s!"but {associativity.text} associativity"

end Parsing
