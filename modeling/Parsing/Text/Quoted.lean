import Parsing.Text.Number

/-!
# Quoted strings

A string between double quotes, in which a backslash starts an escape: a letter for a control
character, a quote or a backslash for itself, `x` with two or `u` with four hexadecimal digits, or
up to three octal digits. A number that is no character stands for U+FFFD.
-/

namespace Parsing.Text

/-- The character with a given code point, if there is one. -/
def characterOf (codePoint : Nat) : Char :=
  if codePoint.isValidChar then Char.ofNat codePoint else '\uFFFD'

/-- The character that a letter behind a backslash stands for. -/
def simpleEscape? : Char → Option Char
  | 'b' => some '\x08'
  | 'f' => some '\x0c'
  | 'n' => some '\n'
  | 'r' => some '\r'
  | 't' => some '\t'
  | '\'' => some '\''
  | '"' => some '"'
  | '\\' => some '\\'
  | _ => none

/-- Reads a code point of exactly `width` hexadecimal digits. -/
def readCodePoint (width : Nat) (text : List Char) : Option (Char × Nat) :=
  let digits := (text.take width).takeWhile (isDigitIn 16)
  if digits.length = width then some (characterOf (digitsValue 16 digits), width) else none

/-- Reads what follows a backslash; all of it is ASCII, so that characters are bytes. -/
def readEscape : List Char → Option (Char × Nat)
  | [] => none
  | c :: text =>
    match simpleEscape? c with
    | some decoded => some (decoded, 1)
    | none =>
      if c = 'x' then (readCodePoint 2 text).map fun (decoded, n) => (decoded, n + 1)
      else if c = 'u' then (readCodePoint 4 text).map fun (decoded, n) => (decoded, n + 1)
      else
        let digits := ((c :: text).take 3).takeWhile (isDigitIn 8)
        if digits.isEmpty then none
        else some (characterOf (digitsValue 8 digits), digits.length)

/-- Reads the items of a string and the closing quote. -/
def readItems : List Char → Option (List Char × Nat)
  | [] => none
  | c :: text =>
    if c = '"' then some ([], 1)
    else if c = '\\' then
      match readEscape text with
      | none => none
      | some (decoded, n) =>
        (readItems (text.drop n)).map fun (value, length) => (decoded :: value, length + n + 1)
    else (readItems text).map fun (value, length) => (c :: value, length + c.utf8Size)
  termination_by text => text.length
  decreasing_by all_goals (simp only [List.length_cons, List.length_drop]; omega)

/-- Reads a string with its quotes. -/
def readQuoted : List Char → Option (String × Nat)
  | [] => none
  | c :: text =>
    if c = '"' then (readItems text).map fun (value, length) => (String.ofList value, length + 1)
    else none

def jsonString : Scanner String := ⟨"string", readQuoted⟩

end Parsing.Text
