import Parsing.Recognizer.Basic

/-!
# Spans

A span says which part of the input a value was read from.
-/

namespace Parsing

universe u

/-- The stretch of input between two cursors. -/
structure Span where
  start : Location
  stop : Location
  startPosition : Nat
  stopPosition : Nat
  deriving DecidableEq

namespace Span

/-- The stretch from one cursor to a later one. -/
def between {C T : Type} [Cursor C T] (c d : C) : Span :=
  ⟨Cursor.location c, Cursor.location d, Cursor.position c, Cursor.position d⟩

/-- How long the stretch is, in units of position. -/
def length (s : Span) : Nat :=
  s.stopPosition - s.startPosition

def isEmpty (s : Span) : Bool :=
  s.startPosition = s.stopPosition

end Span

namespace Recognizer

variable {m : Type → Type u} [Monad m] {C T α : Type} [Cursor C T]

/-- Adds to a value the stretch that it was read from. -/
def withSpan (p : Recognizer m C α) : Recognizer m C (α × Span) := fun c =>
  chain p (fun a rest => succeed (a, Span.between c rest) rest) c

end Recognizer

end Parsing
