/-!
# Finite tables

A `Table` keeps one value per key. What it holds is read through `find?`; inserting replaces the
value of its key and leaves every other key as it was.
-/

namespace Parsing

/-- Values by key, the last one inserted first. -/
structure Table (κ ν : Type) where
  entries : List (κ × ν) := []

namespace Table

variable {κ ν : Type} [DecidableEq κ]

/-- The value of a key. -/
def find? (t : Table κ ν) (k : κ) : Option ν :=
  (t.entries.find? fun e => decide (e.1 = k)).map Prod.snd

/-- The table without a key. -/
def erase (t : Table κ ν) (k : κ) : Table κ ν :=
  ⟨t.entries.filter fun e => !decide (e.1 = k)⟩

/-- The table with a value for a key, in place of the value it may have had. -/
def insert (t : Table κ ν) (k : κ) (v : ν) : Table κ ν :=
  ⟨(k, v) :: (t.erase k).entries⟩

/-- The number of entries. -/
def size (t : Table κ ν) : Nat :=
  t.entries.length

@[simp] theorem find?_empty (k : κ) : ({} : Table κ ν).find? k = none := rfl

/-- Erasing a key leaves what is found at other keys. -/
theorem find?_erase_of_ne {t : Table κ ν} {k k' : κ} (h : k' ≠ k) :
    (t.erase k).find? k' = t.find? k' := by
  have keeps (es : List (κ × ν)) :
      (es.filter fun e => !decide (e.1 = k)).find? (fun e => decide (e.1 = k')) =
        es.find? fun e => decide (e.1 = k') := by
    rw [List.find?_filter]
    congr 1
    funext e
    by_cases hk : e.1 = k' <;> simp [hk, h]
  simp only [find?, erase, keeps]

/-- What was inserted last at a key is found there, and what is found at other keys stays. -/
theorem find?_insert (t : Table κ ν) (k k' : κ) (v : ν) :
    (t.insert k v).find? k' = if k' = k then some v else t.find? k' := by
  by_cases h : k' = k
  · simp [find?, insert, h]
  · have h' : k ≠ k' := fun e => h e.symm
    have : (t.insert k v).find? k' = (t.erase k).find? k' := by
      simp [find?, insert, h']
    rw [if_neg h, this, find?_erase_of_ne h]

end Table

end Parsing
