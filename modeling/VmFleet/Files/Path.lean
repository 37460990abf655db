/-
This file holds paths. A path is the octets it was written with: nothing is
normalised when paths are joined, and names need not be text. What a path says
is a row of steps from the root or from the place it is read at; a slash at the
end asks for a directory and so counts as a step that stays in place.
-/

import VmFleet.Text.Utf8

namespace VmFleet

open VmFleet.Text

/-- A file name. -/
abbrev FileName := List UInt8

/-- A path as it was written. -/
structure Path where
  octets : List UInt8
deriving DecidableEq, Repr

namespace Path

/-- The octet of the slash. -/
def slash : UInt8 := 0x2F

/-- The name of the directory itself. -/
def here : FileName := [0x2E]

/-- The name of the directory above. -/
def above : FileName := [0x2E, 0x2E]

/-- The path that a text writes. -/
def ofString (text : String) : Path :=
  ⟨octetsOf text⟩

/-- The path as text, with replacements for whatever is no text. -/
def display (path : Path) : String :=
  decodeLossy path.octets

/-- An absolute path starts at the root. -/
def isAbsolute (path : Path) : Bool :=
  path.octets.head? == some slash

/-- The right path read from the left one. An absolute right side stands alone;
else one slash is put between them unless the left side is empty or has one. -/
def join (left right : Path) : Path :=
  if right.isAbsolute then right
  else if left.octets.isEmpty ∨ left.octets.getLast? = some slash then
    ⟨left.octets ++ right.octets⟩
  else ⟨left.octets ++ slash :: right.octets⟩

/-- The right side given as text. -/
def child (left : Path) (right : String) : Path :=
  left.join (ofString right)

/-- The pieces between slashes. -/
def pieces : List UInt8 → List FileName
  | [] => [[]]
  | octet :: octets =>
    if octet = slash then [] :: pieces octets
    else
      match pieces octets with
      | piece :: rest => (octet :: piece) :: rest
      | [] => [[octet]]

/-- The names in a path, with repeated slashes left out. -/
def names (path : Path) : List FileName :=
  (pieces path.octets).filter (!·.isEmpty)

/-- Whether the path ends in a slash that follows a name. -/
def asksForDirectory (path : Path) : Bool :=
  path.octets.getLast? == some slash && !path.names.isEmpty

/-- The steps of a path, where a slash at the end is a step that stays. -/
def steps (path : Path) : List FileName :=
  path.names ++ if path.asksForDirectory then [here] else []

/-- The names that count when a path is taken apart: staying in place counts
only at the very start of a path that is not absolute. -/
def parts (path : Path) : List FileName :=
  match path.names with
  | [] => []
  | first :: rest =>
    let rest := rest.filter (· != here)
    if first = here ∧ path.isAbsolute then rest else first :: rest

/-- The path with these parts. -/
def ofParts (absolute : Bool) (parts : List FileName) : Path :=
  let relative := (parts.intersperse [slash]).flatten
  ⟨if absolute then slash :: relative else relative⟩

/-- The path without its last part; the root and the empty path have none. -/
def parent? (path : Path) : Option Path :=
  if path.parts.isEmpty then none
  else some (ofParts path.isAbsolute path.parts.dropLast)

end Path

end VmFleet
