/-
This file holds readers: a reader takes a value from the start of a text and
returns the rest, or refuses. Larger formats are put together from smaller ones
by handing the rest on.
-/

namespace VmFleet

/-- A reader takes a value from the start of a text and returns the rest. -/
abbrev Reader (α : Type) := List Char → Option (α × List Char)

namespace Text

/-- One expected character. -/
def readCharacter (expected : Char) : Reader Unit
  | character :: text => if character = expected then some ((), text) else none
  | [] => none

end Text

end VmFleet
