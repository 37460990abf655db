/-
This file holds what a configuration file says: a row of statements that assign
values to keys or open tables. Nothing is merged here. A key that is assigned
twice stands twice, and a table that is opened again is opened again, so that
the meaning of repetition is left to whoever reads the statements.
-/

import VmFleet.Number.Binary64

namespace VmFleet.Toml

/-- A key as a row of names. -/
abbrev Key := List String

/-- A value. A date or a time is kept as it was written, and a table as the row
of its assignments. -/
inductive Value
  | text (content : String)
  | integer (number : Int)
  | float (number : Binary64)
  | boolean (content : Bool)
  | moment (source : String)
  | array (items : List Value)
  | table (assignments : List (Key × Value))
deriving Repr

/-- A statement. -/
inductive Statement
  | assign (key : Key) (value : Value)
  | openTable (key : Key)
  /-- Opens one more table in an array of tables. -/
  | openItem (key : Key)
deriving Repr

end VmFleet.Toml
