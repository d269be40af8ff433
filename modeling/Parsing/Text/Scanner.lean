import Parsing.Recognizer.Basic

/-!
# Scanners

A scanner reads a value off the front of a text and tells how many bytes it took. It is what makes
the parsers that exist for text alone; `Recognizer.scan` runs one at a cursor.
-/

namespace Parsing

universe u

/-- A value off the front of a text, with the number of bytes read, and what to expect there. -/
structure Scanner (α : Type) where
  expected : String
  scan : List Char → Option (α × Nat)

namespace Scanner

variable {α β : Type}

/-- Changes the value that is read. -/
def map (f : α → β) (s : Scanner α) : Scanner β where
  expected := s.expected
  scan text := (s.scan text).map fun (a, n) => (f a, n)

/-- The longest run of characters that pass a test, with its length in bytes. -/
def run (accepts : Char → Bool) (text : List Char) : List Char × Nat :=
  let read := text.takeWhile accepts
  (read, byteLength read)

/-- Reads a fixed text. -/
def literal (expected : String) : Scanner String where
  expected := s!"\"{expected}\""
  scan text :=
    if expected.toList.isPrefixOf text then some (expected, byteLength expected.toList) else none

end Scanner

namespace Recognizer

variable {m : Type → Type u} [Monad m] [Halting m] {C α : Type} [TextCursor C]

/-- Reads a value off the front of what is left. -/
def scan (s : Scanner α) : Recognizer m C α := fun c =>
  match s.scan (TextCursor.rest c) with
  | none => fail s.expected c
  | some (a, n) =>
    match TextCursor.advanceBytes c n with
    | some rest => succeed a rest
    | none => halt .brokenCharacter

end Recognizer

end Parsing
