/-
This file holds rows keyed by text, in ascending order of their keys. Each key
has at most one row. The order is that of the characters of the keys, so a
listing never depends on when a row was put in.
-/

namespace VmFleet

/-- Rows keyed by text. -/
structure Keyed (α : Type) where
  rows : List (String × α)
deriving DecidableEq, Repr

namespace Keyed

variable {α : Type}

/-- No rows. -/
def empty : Keyed α :=
  ⟨[]⟩

/-- The row of a key. -/
def find? (table : Keyed α) (key : String) : Option α :=
  (table.rows.find? (·.1 == key)).map (·.2)

/-- Whether a key has a row. -/
def contains (table : Keyed α) (key : String) : Bool :=
  table.rows.any (·.1 == key)

/-- Rows with one more, put where its key belongs. -/
def insertRow (key : String) (value : α) : List (String × α) → List (String × α)
  | [] => [(key, value)]
  | (other, row) :: rows =>
    if key < other then (key, value) :: (other, row) :: rows
    else if key = other then (key, value) :: rows
    else (other, row) :: insertRow key value rows

/-- The table in which a key has the given row, whatever row it had. -/
def insert (table : Keyed α) (key : String) (value : α) : Keyed α :=
  ⟨insertRow key value table.rows⟩

/-- The table without the row of a key. -/
def erase (table : Keyed α) (key : String) : Keyed α :=
  ⟨table.rows.filter (·.1 != key)⟩

/-- The table in which the row of a key, if there is one, is changed. -/
def modify (table : Keyed α) (key : String) (change : α → α) : Keyed α :=
  ⟨table.rows.map fun (other, row) => (other, if other = key then change row else row)⟩

/-- The keys in ascending order. -/
def keys (table : Keyed α) : List String :=
  table.rows.map (·.1)

/-- The rows in ascending order of their keys. -/
def values (table : Keyed α) : List α :=
  table.rows.map (·.2)

end Keyed

end VmFleet
