import Parsing.Pattern.Match
import Parsing.Pattern.Reader
import Parsing.Text.Engine

/-!
# An engine for patterns

The engine that programs are run with. It knows a part of the syntax that patterns may have, and
refuses the rest; parsers from patterns can be made of any other engine.
-/

namespace Parsing

namespace Pattern

/-- The first match in a text. -/
def Automaton.find? (m : Automaton) (text : List Char) : Option (Found text) :=
  (m.find text).map fun (start, stop) =>
    { skipped := (text.take stop).take start
      read := (text.take stop).drop start
      rest := text.drop stop
      append_eq := by rw [List.take_append_drop, List.take_append_drop] }

/-- Compiles a pattern to its automaton. -/
def compile? (pattern : List Char) : Option ((text : List Char) → Option (Found text)) :=
  (Regex.read pattern).map fun r => r.automaton.find?

end Pattern

instance : PatternEngine :=
  ⟨Pattern.compile?⟩

end Parsing
