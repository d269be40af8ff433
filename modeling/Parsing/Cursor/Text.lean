import Parsing.Cursor.Basic

/-!
# Reading a text

`TextReader` is a cursor over a text that counts its position in bytes. It moves by bytes in one go,
and a move past the end stops at the end. `PlainReader` wraps such a reader and defines only what
a cursor has to define, so that its other moves are those that `Cursor` and `TextCursor` derive.
-/

namespace Parsing

/-- A place in a text: the whole text, what is left of it, and how many bytes came before. -/
structure TextReader where
  source : List Char
  rest : List Char
  position : Nat
  location : Location
  input : InputId
  deriving DecidableEq

namespace TextReader

/-- The start of a text. -/
def ofChars (text : List Char) (location : Location) (input : InputId) : TextReader :=
  ⟨text, text, 0, location, input⟩

/-- Past the next character. -/
def next (c : TextReader) : TextReader :=
  match c.rest with
  | [] => c
  | t :: rest =>
    { c with rest, position := c.position + t.utf8Size, location := c.location.advance t }

/-- The place reached by consuming `read`, after which `rest` is left. -/
def passing (c : TextReader) (read rest : List Char) : TextReader :=
  { c with
    rest
    position := c.position + byteLength read
    location := c.location.advanceBy read }

end TextReader

/-- Cuts a text after `n` bytes, or at its end if that comes first. There is no such cut where `n`
bytes end inside a character. -/
def cutBytes? : List Char → Nat → Option (List Char × List Char)
  | [], _ => some ([], [])
  | cs, 0 => some ([], cs)
  | c :: cs, n + 1 =>
    if c.utf8Size ≤ n + 1 then
      (cutBytes? cs (n + 1 - c.utf8Size)).map fun (read, rest) => (c :: read, rest)
    else none

instance : TextCursor TextReader where
  current c := c.rest.head?
  next := TextReader.next
  position := TextReader.position
  location := TextReader.location
  input := TextReader.input
  rest := TextReader.rest
  advanceBytes c n := (cutBytes? c.rest n).map fun (read, rest) => c.passing read rest

/-- A reader with no moves of its own beyond single steps. -/
structure PlainReader where
  inner : TextReader
  deriving DecidableEq

instance : TextCursor PlainReader where
  current c := Cursor.current c.inner
  next c := ⟨c.inner.next⟩
  position c := c.inner.position
  location c := c.inner.location
  input c := c.inner.input
  rest c := c.inner.rest

end Parsing
