import Parsing.Parser.Text
import Parsing.Proofs.Text.Lexeme
import Parsing.Proofs.Text.Quoting
import Parsing.Value.Text

/-!
# A grammar for JSON

JSON documents as values (`Json`), what they are made of when they are printed (`Json.tokens`), and
a parser for them (`Json.document`): a choice between the six kinds of values that is recursive
through arrays and objects, each of them with white space around its tokens.
-/

namespace Parsing

/-- A JSON value. The entries of an object stand in order, and keys may repeat. -/
inductive Json where
  | null
  | bool (value : Bool)
  | number (value : Float)
  | string (value : String)
  | array (elements : List Json)
  | object (entries : List (String × Json))

namespace Json

/-! ## Printing -/

/-- The value of an entry is smaller than the entries that it is one of. -/
theorem sizeOf_snd_lt_of_mem {entries : List (String × Json)} {entry : String × Json}
    (h : entry ∈ entries) : sizeOf entry.2 < sizeOf entries := by
  have hentry : sizeOf entry = 1 + sizeOf entry.1 + sizeOf entry.2 := Prod.mk.sizeOf_spec _ _
  have hlt := List.sizeOf_lt_of_mem h
  omega

/-- The tokens of a value in the order in which they are printed. -/
def tokens : Json → List (List Char)
  | null => ["null".toList]
  | bool value => [(toString value).toList]
  | number value => [(Decimal.text value).toList]
  | string value => [Text.quoted value]
  | array elements => ['['] :: (Text.separated [','] (elements.map fun v => v.tokens) ++ [[']']])
  | object entries =>
    ['{'] :: (Text.separated [',']
      (entries.map fun entry => Text.quoted entry.1 :: [':'] :: entry.2.tokens) ++ [['}']])
  decreasing_by
  · have hlt := List.sizeOf_lt_of_mem ‹_›
    simp only [array.sizeOf_spec]
    omega
  · have hlt := sizeOf_snd_lt_of_mem ‹_›
    simp only [object.sizeOf_spec]
    omega

/-- Values without numbers. -/
inductive NumberFree : Json → Prop
  | null : NumberFree null
  | bool (value : Bool) : NumberFree (bool value)
  | string (value : String) : NumberFree (string value)
  | array {elements : List Json} (h : ∀ v ∈ elements, NumberFree v) : NumberFree (array elements)
  | object {entries : List (String × Json)} (h : ∀ entry ∈ entries, NumberFree entry.2) :
    NumberFree (object entries)

/-! ## Parsing -/

variable {α : Type}

/-- A character with white space around it. -/
def mark (c : Char) : Parser TextPrimitive Json Char :=
  .lexeme (.char c)

/-- Any number of elements with commas between them. -/
def listOf (p : Parser TextPrimitive Json α) : Parser TextPrimitive Json (List α) :=
  .orElse "[]" [] (.joinedBy p (mark ','))

def arrayOf (element : Parser TextPrimitive Json Json) : Parser TextPrimitive Json Json :=
  .map array (.skip (.andThen (mark '[') (listOf element)) (mark ']'))

def entryOf (element : Parser TextPrimitive Json Json) :
    Parser TextPrimitive Json (String × Json) :=
  .and (.skip (.lexeme (.scan Text.jsonString)) (mark ':')) element

def objectOf (element : Parser TextPrimitive Json Json) : Parser TextPrimitive Json Json :=
  .map object (.skip (.andThen (mark '{') (listOf (entryOf element))) (mark '}'))

/-- The parsers of the kinds of values, where `element` is that of any value. -/
def kinds (element : Parser TextPrimitive Json Json) : List (Parser TextPrimitive Json Json) :=
  [.replaced null (.lexeme (.literal "null")), .map string (.lexeme (.scan Text.jsonString)),
    .map number (.lexeme (.scan Text.float)), .map bool (.lexeme .boolean), arrayOf element,
    objectOf element]

/-- A value of any kind, inside of the recursive parser. -/
def form : Parser TextPrimitive Json Json :=
  .choiceOf (kinds (.self "element"))

/-- A value and nothing else. -/
def document : Parser TextPrimitive Json Json :=
  .skip (.recursive "element" form) .eof

end Json

end Parsing
