import Parsing.Recognizer.Choice

/-!
# Elements with separators

One element, then pairs of a separator and an element for as long as both are there. A pair that
is not complete is given back whole. Nothing checks that a pair consumes anything.
-/

namespace Parsing

universe u

/-- What elements with separators between them read as: the first element, and then each separator
with the element after it. -/
abbrev Interleaved (α β : Type) := α × List (β × α)

namespace Interleaved

variable {α β : Type}

/-- The elements. -/
def elements (xs : Interleaved α β) : List α :=
  xs.1 :: xs.2.map Prod.snd

/-- The elements and separators in the order in which they stand. -/
def all (xs : Interleaved α α) : List α :=
  xs.1 :: xs.2.flatMap fun (separator, element) => [separator, element]

end Interleaved

namespace Recognizer

variable {m : Type → Type u} [Monad m] [Halting m] {C T α β : Type} [Cursor C T]

/-- Pairs of a separator and an element, up to the first that is not there. -/
def pairs (separator : Recognizer m C β) (element : Recognizer m C α) :
    Nat → Recognizer m C (List (β × α))
  | 0 => fun _ => halt .outOfFuel
  | fuel + 1 => chain (optional (zip Prod.mk separator element)) fun
    | none => succeed []
    | some pair => map (List.cons pair) (pairs separator element fuel)

/-- Elements with separators between them. -/
def joined (fuel : Nat) (element : Recognizer m C α) (separator : Recognizer m C β) :
    Recognizer m C (Interleaved α β) :=
  zip Prod.mk element (pairs separator element fuel)

end Recognizer

end Parsing
