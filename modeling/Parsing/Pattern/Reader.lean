import Parsing.Pattern.ClassReader
import Parsing.Pattern.Letter
import Parsing.Pattern.Size

/-!
# Reading patterns

`Regex.read` turns the text of a pattern into a regular expression, or tells that the text is not a
pattern. It goes through the text once and keeps the groups that are open. A pattern that nests too
deeply, or whose expression is too large, is refused: groups, repetitions, classes, choices and
sequences of several parts each add a level.
-/

namespace Parsing.Pattern

/-- How the rest of a group is read. -/
structure Flags where
  ignoreCase : Bool := false
  multiLine : Bool := false
  dotMatchesNewline : Bool := false
  /-- Exchanges greedy and lazy repetitions. -/
  swapGreed : Bool := false

namespace Flags

/-- Sets the flag of a letter. -/
def set (flags : Flags) (value : Bool) : Char → Option Flags
  | 'i' => some { flags with ignoreCase := value }
  | 'm' => some { flags with multiLine := value }
  | 's' => some { flags with dotMatchesNewline := value }
  | 'U' => some { flags with swapGreed := value }
  | 'u' => some flags
  | _ => none

end Flags

/-- An expression with the levels of the text that it was read from. -/
structure Nested where
  regex : Regex
  depth : Nat := 0

namespace Nested

/-- The levels of several texts next to each other: one more than the deepest, if they are several.
-/
def levels (texts : List Nested) : Nat :=
  let deepest := (texts.map depth).foldr max 0
  if texts.length ≤ 1 then deepest else deepest + 1

end Nested

/-- One part of a sequence; a setting of flags is one, but cannot be repeated. -/
inductive Item where
  | expression (r : Nested)
  | setting

/-- The expression that a part stands for. -/
def Item.nested : Item → Nested
  | .expression r => r
  | .setting => ⟨.empty, 0⟩

/-- A group that is being read: its number, if it has one, the alternatives before the last, and the
parts of the last one, both with the latest first. -/
structure Group where
  number : Option Nat := none
  alternatives : List Nested := []
  items : List Item := []

namespace Group

/-- Adds a part. -/
def push (g : Group) (r : Nested) : Group :=
  { g with items := .expression r :: g.items }

/-- The alternative that is being read. -/
def last (g : Group) : Nested :=
  let parts := g.items.reverse.map Item.nested
  ⟨Regex.sequence (parts.map Nested.regex), Nested.levels parts⟩

/-- Begins another alternative. -/
def divide (g : Group) : Group :=
  { g with alternatives := g.last :: g.alternatives, items := [] }

/-- What stands in the group. -/
def inside (g : Group) : Nested :=
  let alternatives := (g.last :: g.alternatives).reverse
  ⟨Regex.choice (alternatives.map Nested.regex), Nested.levels alternatives⟩

/-- The whole group. -/
def close (g : Group) : Nested :=
  let ⟨r, depth⟩ := g.inside
  ⟨g.number.elim r (.group · r), depth + 1⟩

/-- Repeats the last part, if there is one that can be. -/
def repeatLast (g : Group) (least : Nat) (greatest : Option Nat) (greedy : Bool) :
    Option Group :=
  match g.items with
  | .expression ⟨r, depth⟩ :: items =>
    some { g with items := .expression ⟨.repeatedly least greatest greedy r, depth + 1⟩ :: items }
  | _ => none

end Group

/-- A place in the text of a pattern: what is left, the group around it, and those around that group
with the flags that hold in them. -/
structure PatternState where
  text : List Char
  flags : Flags := {}
  group : Group := {}
  outer : List (Group × Flags) := []
  /-- The number of numbered groups so far. -/
  groups : Nat := 0
  /-- The names of groups so far. -/
  names : List String := []

/-- Reads a number with white space around it. -/
def readCount (text : List Char) : Option (Nat × List Char) :=
  let text := text.dropWhile Text.isBlank
  let digits := text.takeWhile Char.isDigit
  let n := Text.digitsValue 10 digits
  if digits.isEmpty || UInt32.size ≤ n then none
  else some (n, (text.drop digits.length).dropWhile Text.isBlank)

/-- Reads a range of counts behind its opening brace. -/
def readCounts (text : List Char) : Option (Nat × Option Nat × List Char) := do
  let (least, text) ← readCount text
  match text with
  | '\x7d' :: text => some (least, some least, text)
  | ',' :: '\x7d' :: text => some (least, none, text)
  | ',' :: text =>
    match ← readCount text with
    | (greatest, '\x7d' :: text) =>
      if least ≤ greatest then some (least, some greatest, text) else none
    | _ => none
  | _ => none

/-- Reads flags up to a colon or a closing parenthesis. -/
def readFlags :
    (negative : Bool) → (seen : List Char) → Flags → List Char → Option (Flags × List Char)
  | _, _, _, [] => none
  | negative, seen, flags, c :: text =>
    if c = ':' || c = ')' then
      -- A hyphen needs a flag behind it.
      if seen.head? = some '-' then none else some (flags, c :: text)
    else if seen.contains c then none
    else if c = '-' then readFlags true (c :: seen) flags text
    else do readFlags negative (c :: seen) (← flags.set (!negative) c) text

/-- Reads the name of a group up to its closing angle bracket. A name may be used once. -/
def readGroupName (names : List String) (text : List Char) : Option (String × List Char) :=
  let starts (c : Char) : Bool := c == '_' || isLetter c
  let goesOn (c : Char) : Bool := starts c || isNumeral c || ['.', '[', ']'].contains c
  let name := text.takeWhile (· != '>')
  match name, text.dropWhile (· != '>') with
  | first :: others, _ :: rest =>
    if starts first && others.all goesOn && !names.contains (String.ofList name) then
      some (String.ofList name, rest)
    else none
  | _, _ => none

namespace PatternState

/-- Adds an expression, going on behind it. -/
def push (s : PatternState) (r : Nested) (text : List Char) : PatternState :=
  { s with text, group := s.group.push r }

/-- Adds an expression without levels. -/
def pushFlat (s : PatternState) (r : Regex) (text : List Char) : PatternState :=
  s.push ⟨r, 0⟩ text

/-- Opens a group, in which the given flags hold. -/
def openGroup (s : PatternState) (flags : Flags) (text : List Char) : PatternState :=
  { s with text, flags, group := {}, outer := (s.group, s.flags) :: s.outer }

/-- Opens the next numbered group. -/
def openNumbered (s : PatternState) (text : List Char) : PatternState :=
  let groups := s.groups + 1
  { s.openGroup s.flags text with group := { number := some groups }, groups }

/-- Repeats the last part; a question mark behind the repetition makes it lazy. -/
def repeatLast (s : PatternState) (least : Nat) (greatest : Option Nat) (text : List Char) :
    Option PatternState :=
  let (greedy, text) := match text with
    | '?' :: text => (s.flags.swapGreed, text)
    | text => (!s.flags.swapGreed, text)
  (s.group.repeatLast least greatest greedy).map fun group => { s with text, group }

/-- Opens a named group behind the angle bracket. -/
def openNamed (s : PatternState) (text : List Char) : Option PatternState :=
  (readGroupName s.names text).map fun (name, text) =>
    { s.openNumbered text with names := name :: s.names }

/-- Reads flags behind `(?`: up to a colon they are those of the group that begins there, and up to
a closing parenthesis those of what follows in the group around. -/
def openFlags (s : PatternState) (text : List Char) : Option PatternState :=
  match readFlags false [] s.flags text with
  | some (flags, ':' :: rest) => some (s.openGroup flags rest)
  | some (flags, ')' :: rest) =>
    if text.head? = some ')' then none
    else some { s with text := rest, flags, group.items := .setting :: s.group.items }
  | _ => none

/-- Reads what follows `(?`. -/
def openSpecial (s : PatternState) (text : List Char) : Option PatternState :=
  match text with
  | '=' :: _ | '!' :: _ | '<' :: '=' :: _ | '<' :: '!' :: _ => none
  | 'P' :: '<' :: text | '<' :: text => s.openNamed text
  | text => s.openFlags text

/-- Reads what follows an opening parenthesis. -/
def openParenthesis (s : PatternState) (text : List Char) : Option PatternState :=
  match text with
  | '?' :: text => s.openSpecial text
  | text => some (s.openNumbered text)

/-- Closes a group, after which the flags around it hold again. -/
def closeParenthesis (s : PatternState) (text : List Char) : Option PatternState :=
  match s.outer with
  | [] => none
  | (group, flags) :: outer =>
    some { s with text, flags, group := group.push s.group.close, outer }

/-- The expression for one character. -/
def character (s : PatternState) (c : Char) : Regex :=
  if s.flags.ignoreCase then .ofClass (CharClass.single c).anyCase else .literal [c]

/-- The expression for an escape. -/
def escape (s : PatternState) : Escape → Regex
  | .character c => s.character c
  | .class a => .ofClass a
  | .anchor a => .anchor a

/-- The expression for any character. -/
def dot (s : PatternState) : Regex :=
  .set (if s.flags.dotMatchesNewline then .everything else (CharClass.single '\n').complement)

/-- Reads one part of the pattern. The fuel is for a class, and suffices if it is the length of the
text at least. -/
def step (fuel : Nat) (s : PatternState) : Option PatternState :=
  match s.text with
  | [] => none
  | c :: text =>
    match c with
    | '(' => s.openParenthesis text
    | ')' => s.closeParenthesis text
    | '|' => some { s with text, group := s.group.divide }
    | '[' =>
      (readClass s.flags.ignoreCase fuel text).map fun (a, depth, text) =>
        s.push ⟨.ofClass a, depth⟩ text
    | '?' => s.repeatLast 0 (some 1) text
    | '*' => s.repeatLast 0 none text
    | '+' => s.repeatLast 1 none text
    | '\x7b' => do
      let (least, greatest, text) ← readCounts text
      s.repeatLast least greatest text
    | '\\' => (readEscape text).map fun (e, text) => s.pushFlat (s.escape e) text
    | '.' => some (s.pushFlat s.dot text)
    | '^' =>
      some (s.pushFlat (.anchor (if s.flags.multiLine then .startOfLine else .startOfText)) text)
    | '$' => some (s.pushFlat (.anchor (if s.flags.multiLine then .endOfLine else .endOfText)) text)
    | c => some (s.pushFlat (s.character c) text)

/-- Reads the rest of the pattern. Every part takes a character at least. -/
def readAll : (fuel : Nat) → PatternState → Option Nested
  | 0, _ => none
  | fuel + 1, s =>
    if s.text.isEmpty then (if s.outer.isEmpty then some s.group.inside else none)
    else (s.step fuel).bind (readAll fuel)

end PatternState

/-- The most levels that a pattern may have. -/
def depthLimit : Nat :=
  250

/-- Reads a pattern. -/
def Regex.read (text : List Char) : Option Regex := do
  let ⟨r, depth⟩ ← PatternState.readAll (text.length + 1) { text }
  if depth ≤ depthLimit && r.isAdmissible then some r else none

end Parsing.Pattern
