import Parsing.Proofs.Text.Whole
import Parsing.Text.Quoted

/-!
# Quoting a string

A string is quoted by a backslash in front of every double quote and every backslash in it, and all
other characters as they are. What is quoted in that way is read back, whatever stands behind.
-/

namespace Parsing.Text

/-- A character of a string as it stands between double quotes. -/
def escaped (c : Char) : List Char :=
  if c = '"' ∨ c = '\\' then ['\\', c] else [c]

/-- A string with its quotes. -/
def quoted (s : String) : List Char :=
  '"' :: (s.toList.flatMap escaped ++ ['"'])

theorem simpleEscape?_of_escaped {c : Char} (h : c = '"' ∨ c = '\\') :
    simpleEscape? c = some c := by
  rcases h with rfl | rfl <;> rfl

/-- An escaped character is read back as the character. -/
theorem readItems_escaped (c : Char) (text : List Char) : readItems (escaped c ++ text) =
    (readItems text).map fun read => (c :: read.1, read.2 + byteLength (escaped c)) := by
  by_cases h : c = '"' ∨ c = '\\'
  · have hescape : readEscape (c :: text) = some (c, 1) := by
      rw [readEscape, simpleEscape?_of_escaped h]
    have hsize : byteLength ['\\', c] = 1 + 1 := by
      rcases h with rfl | rfl <;> rfl
    rw [escaped, if_pos h, List.cons_append, List.cons_append, List.nil_append, readItems,
      if_neg (by decide), if_pos rfl, hescape, hsize]
    rfl
  · obtain ⟨hquote, hbackslash⟩ := not_or.mp h
    rw [escaped, if_neg h, List.cons_append, List.nil_append, readItems, if_neg hquote,
      if_neg hbackslash]
    rfl

/-- Characters that are escaped are read back, up to the quotation mark. -/
theorem readItems_flatMap_escaped (cs rest : List Char) :
    readItems (cs.flatMap escaped ++ '"' :: rest) =
      some (cs, byteLength (cs.flatMap escaped ++ ['"'])) := by
  induction cs with
  | nil => rw [List.flatMap_nil, List.nil_append, readItems, if_pos rfl]; rfl
  | cons c cs ih =>
    have hlength := byteLength_append (escaped c) (cs.flatMap escaped ++ ['"'])
    rw [List.flatMap_cons, List.append_assoc, readItems_escaped, ih, Option.map_some,
      List.append_assoc, hlength, Nat.add_comm]

/-- A quoted string is read back up to its closing quote. -/
theorem readQuoted_quoted (s : String) (rest : List Char) :
    readQuoted (quoted s ++ rest) = some (s, byteLength (quoted s)) := by
  have htext : quoted s ++ rest = '"' :: (s.toList.flatMap escaped ++ '"' :: rest) := by
    rw [quoted, List.cons_append, List.append_assoc, List.singleton_append]
  have hlength : byteLength (quoted s) = 1 + byteLength (s.toList.flatMap escaped ++ ['"']) :=
    byteLength_cons _ _
  rw [htext, readQuoted, if_pos rfl, readItems_flatMap_escaped, hlength, Nat.add_comm]
  simp only [Option.map_some, String.ofList_toList]

end Parsing.Text
