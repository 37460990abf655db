/-
This file holds a tree of files as a value. A location is a row of names with
the innermost one first, so the directory that holds a location is its tail and
what lies below a directory ends in it. The tree lists what stands at each
location; the root is always there. A directory knows when it was last changed,
and every change of a tree stamps the directory it happens in. Some things the
system holds on to, and they cannot be taken away.
-/

import VmFleet.Files.Cause
import VmFleet.Files.Path

namespace VmFleet

/-- Where something stands: names from the innermost to the outermost. -/
abbrev Location := List FileName

/-- An instant: whole seconds since 1970 and nanoseconds within the second. -/
structure Timestamp where
  seconds : Int
  nanoseconds : Nat
deriving DecidableEq, Repr, Inhabited

/-- Whether the second instant is later. -/
def Timestamp.isBefore (left right : Timestamp) : Bool :=
  left.seconds < right.seconds ||
    (left.seconds == right.seconds && left.nanoseconds < right.nanoseconds)

/-- What stands at a location. -/
inductive Node
  | file (content : List UInt8)
  | directory (modified : Timestamp)
  | link (target : Path)
  /-- A device or another thing that is neither a file nor a directory. -/
  | special
deriving DecidableEq, Repr

/-- A tree of files, and the instant with which changes are stamped. -/
structure Tree where
  nodes : List (Location × Node)
  now : Timestamp
  /-- What the system lets nobody take away. -/
  held : List (Location × Hold) := []
deriving Repr

namespace Tree

/-- What stands at a location. -/
def find? (tree : Tree) (location : Location) : Option Node :=
  if location.isEmpty then some (.directory tree.now)
  else (tree.nodes.find? (·.1 == location)).map (·.2)

/-- Whether a directory stands at a location. -/
def isDirectoryAt (tree : Tree) (location : Location) : Bool :=
  match tree.find? location with
  | some (.directory _) => true
  | _ => false

/-- The names directly below a location. -/
def namesAt (tree : Tree) (location : Location) : List FileName :=
  tree.nodes.filterMap fun (place, _) =>
    match place with
    | name :: outer => if outer = location then some name else none
    | [] => none

/-- How many levels of names there are. -/
def depth (tree : Tree) : Nat :=
  tree.nodes.foldr (fun (place, _) depth => max place.length depth) 0

/-- Why the system holds on to what stands at a location, if it does. -/
def heldBy? (tree : Tree) (location : Location) : Option Hold :=
  (tree.held.find? (·.1 == location)).map (·.2)

/-- Whether the system holds on to something at a location or below it. -/
def holdsIn (tree : Tree) (location : Location) : Bool :=
  tree.held.any fun (place, _) => location.isSuffixOf place

/-- Stamp a directory as changed now. -/
def stamp (tree : Tree) (location : Location) : Tree :=
  { tree with
    nodes := tree.nodes.map fun (place, node) =>
      match node with
      | .directory _ => (place, if place = location then .directory tree.now else node)
      | _ => (place, node) }

/-- Put something at a location where nothing stands yet. -/
def add (tree : Tree) (location : Location) (node : Node) : Tree :=
  let grown := { tree with nodes := tree.nodes ++ [(location, node)] }
  grown.stamp location.tail

/-- Put something in place of what stands at a location. -/
def replace (tree : Tree) (location : Location) (node : Node) : Tree :=
  { tree with
    nodes := tree.nodes.map fun (place, old) => (place, if place = location then node else old) }

/-- Take away a location and everything below it. -/
def prune (tree : Tree) (location : Location) : Tree :=
  let cut := { tree with nodes := tree.nodes.filter fun (place, _) => !location.isSuffixOf place }
  cut.stamp location.tail

/-- A tree with nothing below its root. -/
def bare (now : Timestamp) : Tree :=
  ⟨[], now, []⟩

end Tree

end VmFleet
