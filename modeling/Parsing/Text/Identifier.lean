import Parsing.Text.Scanner

/-!
# Identifiers

An identifier is one character that may start it and all that may go on after it. Letters are ASCII.
-/

namespace Parsing.Text

/-- Reads one character that passes a test and all that pass another test behind it. -/
def readWord (starts goesOn : Char → Bool) : List Char → Option (String × Nat)
  | [] => none
  | c :: text =>
    if starts c then
      let word := c :: text.takeWhile goesOn
      some (String.ofList word, byteLength word)
    else none

/-- Letters and the underscore. -/
def startsIdentifier (c : Char) : Bool :=
  c.isAlpha || c == '_'

/-- Letters, the underscore and the dollar sign. -/
def startsJavaIdentifier (c : Char) : Bool :=
  startsIdentifier c || c == '$'

def identifier : Scanner String where
  expected := "identifier"
  scan := readWord startsIdentifier fun c => startsIdentifier c || c.isDigit

/-- Reads an identifier that may contain dollar signs. -/
def readJavaIdentifier : List Char → Option (String × Nat) :=
  readWord startsJavaIdentifier fun c => startsJavaIdentifier c || c.isDigit

def javaIdentifier : Scanner String := ⟨"identifier", readJavaIdentifier⟩

/-- The backtick. -/
def tick : Char := '\x60'

/-- Reads anything between two backticks, or an identifier as Java has them. -/
def readKotlinIdentifier : List Char → Option (String × Nat)
  | [] => none
  | c :: text =>
    if c = tick then
      if text.contains tick then
        let word := tick :: (text.takeWhile (· != tick) ++ [tick])
        some (String.ofList word, byteLength word)
      else none
    else readJavaIdentifier (c :: text)

def kotlinIdentifier : Scanner String := ⟨"identifier", readKotlinIdentifier⟩

end Parsing.Text
