import Parsing.Parser.Basic
import Parsing.Shown

/-!
# Combinators in terms of others

Ways of combining parsers that need no expression of their own, and the tests on single tokens.
-/

namespace Parsing.Parser

variable {π : Type → Type} {ρ α β γ T : Type}

/-! ## One after another -/

/-- Two values. -/
def and (p : Parser π ρ α) (q : Parser π ρ β) : Parser π ρ (α × β) :=
  .zip Prod.mk p q

/-- The second of two values. -/
def andThen (p : Parser π ρ α) (q : Parser π ρ β) : Parser π ρ β :=
  .zip (fun _ b => b) p q

/-- The first of two values. -/
def skip (p : Parser π ρ α) (q : Parser π ρ β) : Parser π ρ α :=
  .zip (fun a _ => a) p q

/-- The value between two others. -/
def between (opening : Parser π ρ α) (p : Parser π ρ β) (closing : Parser π ρ γ) :
    Parser π ρ β :=
  andThen opening (skip p closing)

/-- All values of a list of parsers. -/
def sequenceOf (ps : List (Parser π ρ α)) : Parser π ρ (List α) :=
  .sequence ps.get

/-- A value in place of the one read. -/
def replaced (value : β) (p : Parser π ρ α) : Parser π ρ β :=
  .map (fun _ => value) p

/-- No value in place of the one read. -/
def ignore (p : Parser π ρ α) : Parser π ρ Unit :=
  replaced () p

/-! ## Alternatives and conditions -/

/-- The first parser of a list that does not fail. -/
def choiceOf (ps : List (Parser π ρ α)) : Parser π ρ α :=
  .choice ps.get

/-- A value after which another parser succeeds; what that one reads is not consumed. -/
def followedBy (p : Parser π ρ α) (q : Parser π ρ β) : Parser π ρ α :=
  skip p (.lookahead q)

/-- A value after which another parser fails. -/
def notFollowedBy (p : Parser π ρ α) (q : Parser π ρ β) : Parser π ρ α :=
  skip p (.not q)

/-! ## Elements with separators -/

/-- The elements. -/
def joinedBy (element : Parser π ρ α) (separator : Parser π ρ β) : Parser π ρ (List α) :=
  .map Interleaved.elements (.joined element separator)

/-- The elements and the separators between them. -/
def joinedByKeeping (element separator : Parser π ρ α) : Parser π ρ (List α) :=
  .map Interleaved.all (.joined element separator)

/-! ## Values and tokens -/

/-- Succeeds with a value. -/
def succeed [Shown α] (value : α) : Parser π ρ α :=
  .success (Shown.text value) value

/-- A value, or the given one. -/
def orDefault [Shown α] (default : α) (p : Parser π ρ α) : Parser π ρ α :=
  .orElse (Shown.text default) default p

section Tokens

variable [HasTokenTests π T]

/-- A token that passes a test. -/
def satisfy (expected : String) (accepts : T → Bool) : Parser π ρ T :=
  .primitive (HasTokenTests.test (.satisfy expected accepts))

/-- The given token. -/
def token [BEq T] [Shown T] (expected : T) : Parser π ρ T :=
  satisfy (Shown.text expected) (· == expected)

/-- Any token. -/
def anyToken : Parser π ρ T :=
  satisfy "<any>" fun _ => true

/-- One of the given tokens. -/
def oneOf [BEq T] [Shown T] (candidates : List T) : Parser π ρ T :=
  satisfy s!"one of [{Shown.list candidates}]" candidates.contains

/-- A token between two others, in an order that need not be total. -/
def tokenRange [Shown T] (compare : T → T → Option Ordering) (low high : T) : Parser π ρ T :=
  satisfy s!"{Shown.text low}..={Shown.text high}" fun t =>
    (compare low t).any (·.isLE) && (compare t high).any (·.isLE)

end Tokens

end Parsing.Parser
