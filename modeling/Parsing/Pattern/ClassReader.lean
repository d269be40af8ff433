import Parsing.Pattern.Regex
import Parsing.Text.Number

/-!
# Reading escapes and classes

The parts of a pattern that stand for one character: escapes behind a backslash, and classes between
square brackets, which may contain other classes and be combined by `&&`, `--` and `~~`. How deep
classes stand in each other is counted: brackets, operations and unions of several items each add a
level.
-/

namespace Parsing.Pattern

/-- What a backslash and the characters behind it stand for. -/
inductive Escape where
  | character (c : Char)
  | class (a : CharClass)
  | anchor (a : Anchor)

/-- The characters that have a meaning of their own in some place. -/
def metaCharacters : List Char :=
  ['\\', '.', '+', '*', '?', '(', ')', '|', '[', ']', '\x7b', '\x7d', '^', '$', '#', '&', '-', '~']

/-- Whether a backslash in front of a character gives the character itself. -/
def escapesToItself (c : Char) : Bool :=
  metaCharacters.contains c || (c.toNat < 128 && !c.isAlphanum && c != '<' && c != '>')

/-- Reads a code point: `width` hexadecimal digits, or any number of them between braces. -/
def readCodePoint (width : Nat) : List Char → Option (Char × List Char)
  | [] => none
  | '\x7b' :: text =>
    let digits := text.takeWhile (Text.isDigitIn 16)
    let n := Text.digitsValue 16 digits
    match text.drop digits.length with
    | '\x7d' :: text =>
      if !digits.isEmpty && n.isValidChar then some (Char.ofNat n, text) else none
    | _ => none
  | text =>
    let digits := (text.take width).takeWhile (Text.isDigitIn 16)
    let n := Text.digitsValue 16 digits
    if digits.length = width && n.isValidChar then some (Char.ofNat n, text.drop width) else none

/-- Reads the name in braces that may follow `\b`. Braces that hold no name are left in the text. -/
def readBoundary (text : List Char) : Option (Anchor × List Char) :=
  let isNamePart (c : Char) : Bool := c.isAlpha || c == '-'
  match text with
  | '\x7b' :: inner =>
    match inner with
    | [] => none
    | c :: _ =>
      if isNamePart c then
        match String.ofList (inner.takeWhile isNamePart), inner.dropWhile isNamePart with
        | "start", '\x7d' :: text => some (.startOfWord, text)
        | "end", '\x7d' :: text => some (.endOfWord, text)
        | "start-half", '\x7d' :: text => some (.afterNonWord, text)
        | "end-half", '\x7d' :: text => some (.beforeNonWord, text)
        | _, _ => none
      else some (.wordBoundary, text)
  | _ => some (.wordBoundary, text)

/-- Reads what follows a backslash. -/
def readEscape : List Char → Option (Escape × List Char)
  | [] => none
  | c :: text =>
    match c with
    | 'd' => some (.class .digit, text)
    | 'D' => some (.class (CharClass.complement .digit), text)
    | 's' => some (.class .space, text)
    | 'S' => some (.class (.complement .space), text)
    | 'w' => some (.class .word, text)
    | 'W' => some (.class (.complement .word), text)
    | 'x' => (readCodePoint 2 text).map fun (c, text) => (.character c, text)
    | 'u' => (readCodePoint 4 text).map fun (c, text) => (.character c, text)
    | 'U' => (readCodePoint 8 text).map fun (c, text) => (.character c, text)
    | 'a' => some (.character '\x07', text)
    | 'f' => some (.character '\x0c', text)
    | 't' => some (.character '\t', text)
    | 'n' => some (.character '\n', text)
    | 'r' => some (.character '\r', text)
    | 'v' => some (.character '\x0b', text)
    | 'A' => some (.anchor .startOfText, text)
    | 'z' => some (.anchor .endOfText, text)
    | 'b' => (readBoundary text).map fun (a, text) => (.anchor a, text)
    | 'B' => some (.anchor .noWordBoundary, text)
    | '<' => some (.anchor .startOfWord, text)
    | '>' => some (.anchor .endOfWord, text)
    | c => if escapesToItself c then some (.character c, text) else none

/-- The class, closed under case if that is ignored. -/
def CharClass.inCase (ignoreCase : Bool) (a : CharClass) : CharClass :=
  if ignoreCase then a.anyCase else a

/-- Splits off a mark of negation, if there is one, and tells whether there was. -/
def splitNegation : List Char → Bool × List Char
  | '^' :: text => (true, text)
  | text => (false, text)

/-- Reads the name of an ASCII class, `:name:]`, behind its opening bracket. The class is closed
under case, if case is ignored, before it is negated. -/
def readNamedClass (ignoreCase : Bool) : List Char → Option (CharClass × List Char)
  | ':' :: text =>
    let (negated, text) := splitNegation text
    match text.dropWhile (· != ':') with
    | ':' :: ']' :: rest =>
      (CharClass.ascii? (String.ofList (text.takeWhile (· != ':')))).map fun a =>
        let a := a.inCase ignoreCase
        (if negated then a.complement else a, rest)
    | _ => none
  | _ => none

/-- Reads one character or class in brackets. -/
def readClassItem : List Char → Option (Escape × List Char)
  | [] => none
  | '\\' :: text => readEscape text
  | c :: text => some (.character c, text)

/-- Reads one character or class in brackets, or a range. -/
def readClassRange (text : List Char) : Option (CharClass × List Char) := do
  let (item, rest) ← readClassItem text
  let alone : Option (CharClass × List Char) :=
    match item with
    | .character c => some (.single c, rest)
    | .class a => some (a, rest)
    | .anchor _ => none
  match rest with
  | [] => none
  | '-' :: ']' :: _ | '-' :: '-' :: _ => alone
  | '-' :: rest =>
    match item, ← readClassItem rest with
    | .character low, (.character high, rest) =>
      if high < low then none else some (.range low.toNat high.toNat, rest)
    | _, _ => none
  | _ => alone

/-- Items of a class that stand next to each other. -/
structure ClassUnion where
  members : CharClass := .nothing
  items : Nat := 0
  /-- The levels of the deepest item. -/
  depth : Nat := 0

namespace ClassUnion

/-- Adds an item that has some levels itself. -/
def add (u : ClassUnion) (a : CharClass) (depth : Nat) : ClassUnion :=
  ⟨u.members.union a, u.items + 1, max u.depth depth⟩

/-- The levels of the union, which is one more if there are several items. -/
def levels (u : ClassUnion) : Nat :=
  if u.items ≤ 1 then u.depth else u.depth + 1

end ClassUnion

/-- What is open while a class is read: a bracket, with the union in front of it, or an operation
with its left side and the levels of that. -/
inductive ClassFrame where
  | bracket (outer : ClassUnion) (negated : Bool)
  | operation (combine : CharClass → CharClass → CharClass) (left : CharClass) (depth : Nat)

/-- The class up to here, with the operation on the left of it, if there is one. Its levels come
with it, and what is open around. -/
def ClassUnion.finish (u : ClassUnion) (ignoreCase : Bool) :
    List ClassFrame → CharClass × Nat × List ClassFrame
  | .operation combine left depth :: frames =>
    (combine (left.inCase ignoreCase) (u.members.inCase ignoreCase), max depth u.levels + 1, frames)
  | frames => (u.members, u.levels, frames)

/-- Reads what may stand first behind an opening bracket: a mark of negation, hyphens, and a closing
bracket that is meant as a character. -/
def readClassStart (text : List Char) : Bool × ClassUnion × List Char :=
  let (negated, text) := splitNegation text
  match text.takeWhile (· == '-'), text.dropWhile (· == '-') with
  | [], ']' :: text => (negated, ⟨.single ']', 1, 0⟩, text)
  | [], text => (negated, {}, text)
  | hyphens, text => (negated, ⟨.single '-', hyphens.length, 0⟩, text)

/-- Reads the rest of a class, and counts its levels. In a class that ignores case, every side of an
operation and every bracket is closed under it before it is negated. -/
def readClassRest (ignoreCase : Bool) :
    (fuel : Nat) → List Char → ClassUnion → List ClassFrame →
      Option (CharClass × Nat × List Char)
  | 0, _, _, _ => none
  | fuel + 1, text, union, frames =>
    let (whole, depth, outer) := union.finish ignoreCase frames
    let operation (combine : CharClass → CharClass → CharClass) (text : List Char) :=
      readClassRest ignoreCase fuel text {} (.operation combine whole depth :: outer)
    match text with
    | [] => none
    | '[' :: text =>
      match readNamedClass ignoreCase text with
      | some (a, text) => readClassRest ignoreCase fuel text (union.add a 0) frames
      | none =>
        let (negated, first, text) := readClassStart text
        readClassRest ignoreCase fuel text first (.bracket union negated :: frames)
    | ']' :: text =>
      match outer with
      | .bracket before negated :: frames =>
        let a := whole.inCase ignoreCase
        let a := if negated then a.complement else a
        match frames with
        | [] => some (a, depth + 1, text)
        | frames => readClassRest ignoreCase fuel text (before.add a (depth + 1)) frames
      | _ => none
    | '&' :: '&' :: text => operation .intersection text
    | '-' :: '-' :: text => operation .difference text
    | '~' :: '~' :: text => operation .symmetricDifference text
    | text => do
      let (a, text) ← readClassRange text
      readClassRest ignoreCase fuel text (union.add a 0) frames

/-- Reads a class behind its opening bracket, and counts its levels. The fuel suffices if it exceeds
the length of the text. -/
def readClass (ignoreCase : Bool) (fuel : Nat) (text : List Char) :
    Option (CharClass × Nat × List Char) :=
  let (negated, first, text) := readClassStart text
  readClassRest ignoreCase fuel text first [.bracket {} negated]

end Parsing.Pattern
