import Parsing.Cursor.Basic

/-!
# Reading a list of tokens

`TokenReader` is a cursor over any list of tokens; its position is the number of tokens passed.
-/

namespace Parsing

/-- A place in a list of tokens: all of them, those that are left, and how many came before. -/
structure TokenReader (T : Type) where
  source : List T
  rest : List T
  position : Nat
  location : Location
  input : InputId

namespace TokenReader

variable {T : Type}

/-- The start of a list of tokens. -/
def ofList (tokens : List T) (location : Location) (input : InputId) : TokenReader T :=
  ⟨tokens, tokens, 0, location, input⟩

/-- Past the next token. -/
def next [Newline T] (c : TokenReader T) : TokenReader T :=
  match c.rest with
  | [] => c
  | t :: rest =>
    { c with rest, position := c.position + 1, location := c.location.advance t }

end TokenReader

instance {T : Type} [Newline T] : Cursor (TokenReader T) T where
  current c := c.rest.head?
  next := TokenReader.next
  position := TokenReader.position
  location := TokenReader.location
  input := TokenReader.input
  isEmpty c := c.rest.isEmpty

end Parsing
