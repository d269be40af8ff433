import Parsing.Text.Shapeless

/-!
# How values are shown

Descriptions quote values: characters between single quotes and strings between double quotes. The
backslash, the quote itself and the common control characters have an escape of their own, and a
character without a shape is shown by its number.
-/

namespace Parsing

/-- Types whose values have a text. -/
class Shown (T : Type) where
  text : T → String

namespace Shown

/-- A character by its number. -/
def byNumber (c : Char) : String :=
  s!"\\u\x7b{String.ofList (Nat.toDigits 16 c.toNat)}\x7d"

/-- A character between quotes of the given kind. -/
def character (quote c : Char) : String :=
  if c = quote || c = '\\' then "\\" ++ c.toString
  else if c = '\x00' then "\\0"
  else if c = '\t' then "\\t"
  else if c = '\r' then "\\r"
  else if c = '\n' then "\\n"
  else if Text.isShapeless c then byNumber c
  else c.toString

instance : Shown Char where
  text c := "'" ++ character '\'' c ++ "'"

instance : Shown String where
  text s := "\"" ++ String.join (s.toList.map (character '"')) ++ "\""

/-- The texts of several values, with commas between them. -/
def list {T : Type} [Shown T] (values : List T) : String :=
  ", ".intercalate (values.map text)

end Shown

end Parsing
