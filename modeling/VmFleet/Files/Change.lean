/-
This file holds the requests that change a tree. Each one may be refused, and a
refused request may already have changed something: making a directory with its
parents can fail half way, and so can taking one away with everything in it. So a
request gives its outcome and the tree that is left, whatever the outcome is.
-/

import VmFleet.Files.Resolve

namespace VmFleet

/-- A request on a tree that gives a value or is refused for a reason. -/
abbrev TreeRequest (ε α : Type) := ExceptT ε (StateM Tree) α

namespace TreeRequest

/-- Ask something about the tree without changing it. -/
def inspect {ε α : Type} (question : Tree → Except ε α) : TreeRequest ε α := do
  match question (← get) with
  | .ok answer => pure answer
  | .error cause => throw cause

/-- Change the tree. -/
def change {ε : Type} (edit : Tree → Tree) : TreeRequest ε Unit :=
  modify edit

/-- Make a request and learn how it ended; this itself is never refused. -/
def attempt {ε δ α : Type} (request : TreeRequest ε α) : TreeRequest δ (Except ε α) :=
  ExceptT.mk do
    let outcome ← request.run
    pure (.ok outcome)

/-- The request with its reasons told in other words. -/
def explain {ε δ α : Type} (words : ε → δ) (request : TreeRequest ε α) : TreeRequest δ α :=
  ExceptT.mk do
    let outcome ← request.run
    pure (outcome.mapError words)

/-- The path without slashes at its end. -/
def withoutTrailingSlash (path : Path) : Path :=
  match (path.octets.reverse.dropWhile (· == Path.slash)).reverse with
  | [] => path
  | octets => ⟨octets⟩

/-- Make one directory. -/
def makeDirectory (place : Location) (path : Path) : TreeRequest Cause Unit := do
  let location ← inspect (·.resolve ⟨false, true⟩ place (withoutTrailingSlash path))
  match ← inspect fun tree => .ok (tree.find? location) with
  | some _ => throw .alreadyThere
  | none => change fun tree => tree.add location (.directory tree.now)

/-- Make one directory, content with one that is there. -/
def makeDirectoryOnce (place : Location) (path : Path) : TreeRequest Cause Unit := do
  match ← attempt (makeDirectory place path) with
  | .ok () => pure ()
  | .error .alreadyThere =>
    if ← inspect fun tree => .ok (tree.isDirectory place path) then pure () else throw .alreadyThere
  | .error cause => throw cause

/-- Make a directory and whatever is missing above it. The parts of the path are
given from the last to the first. -/
def makeDirectories (place : Location) (absolute : Bool) : List FileName → TreeRequest Cause Unit
  | [] => pure ()
  | part :: parts => do
    let path := Path.ofParts absolute (part :: parts).reverse
    match ← attempt (makeDirectoryOnce place path) with
    | .error .noEntry =>
      makeDirectories place absolute parts
      makeDirectoryOnce place path
    | .error cause => throw cause
    | .ok () => pure ()

/-- Make the directory of a path and whatever is missing above it. -/
def makePath (place : Location) (path : Path) : TreeRequest Cause Unit :=
  if path.octets.contains 0 then throw .zeroOctet
  else makeDirectories place path.isAbsolute path.parts.reverse

/-- Take away what stands at a location, unless the system holds on to it. -/
def removeEntry (location : Location) : TreeRequest Cause Unit := do
  match ← inspect fun tree => .ok (tree.heldBy? location) with
  | some hold => throw hold.cause
  | none => change (·.prune location)

/-- Take away a directory in which nothing is left, or something else than a directory. -/
def removeEmptied (location : Location) : TreeRequest Cause Unit := do
  match ← inspect fun tree => .ok (tree.namesAt location) with
  | [] => removeEntry location
  | _ :: _ => throw .notEmpty

/-- Take away what stands at a location, and before it whatever lies below it, down to a number
of levels. What was taken away before something is refused stays away. -/
def removeDown : Nat → Location → TreeRequest Cause Unit
  | 0, location => removeEmptied location
  | levels + 1, location => do
    let names ← inspect fun tree => .ok (tree.namesAt location)
    names.forM fun name => removeDown levels (name :: location)
    removeEmptied location

/-- Take away a file or a link, but no directory. -/
def removeFile (place : Location) (path : Path) : TreeRequest Cause Unit := do
  let location ← inspect (·.resolve ⟨false, false⟩ place path)
  match ← inspect fun tree => .ok (tree.find? location) with
  | some (.directory _) => throw .isDirectory
  | some _ => removeEntry location
  | none => throw .noEntry

/-- Take away a directory with everything in it, or a link to whatever. -/
def removeAll (place : Location) (path : Path) : TreeRequest Cause Unit := do
  let location ← inspect (·.resolve ⟨false, false⟩ place path)
  match ← inspect fun tree => .ok (tree.find? location) with
  | some (.directory _) =>
    let levels ← inspect fun tree => .ok tree.depth
    removeDown levels location
  | some (.link _) => removeEntry location
  | some _ => throw .notDirectory
  | none => throw .noEntry

/-- Open a file to write at its end, making it when it is missing. Gives the
location of the file. -/
def openToAppend (place : Location) (path : Path) : TreeRequest Cause Location := do
  let location ← inspect (·.resolve ⟨true, true⟩ place (withoutTrailingSlash path))
  if path.asksForDirectory then throw .isDirectory
  match ← inspect fun tree => .ok (tree.find? location) with
  | some (.directory _) => throw .isDirectory
  | some _ => pure location
  | none =>
    change (·.add location (.file []))
    pure location

/-- Write at the end of the file at a location. -/
def append (location : Location) (octets : List UInt8) : TreeRequest Cause Unit :=
  change fun tree =>
    match tree.find? location with
    | some (.file content) => tree.replace location (.file (content ++ octets))
    | _ => tree

/-- Put a file with the given content at a path, whatever its content was. -/
def writeFile (place : Location) (path : Path) (octets : List UInt8) : TreeRequest Cause Unit := do
  let location ← openToAppend place path
  change fun tree =>
    match tree.find? location with
    | some (.file _) => tree.replace location (.file octets)
    | _ => tree

/-- Put a link at a path where nothing stands. -/
def makeLink (place : Location) (path target : Path) : TreeRequest Cause Unit := do
  let location ← inspect (·.resolve ⟨false, true⟩ place path)
  match ← inspect fun tree => .ok (tree.find? location) with
  | some _ => throw .alreadyThere
  | none => change (·.add location (.link target))

/-- Set the instant at which a directory was last changed. -/
def touch (place : Location) (path : Path) (modified : Timestamp) : TreeRequest Cause Unit := do
  let location ← inspect (·.resolve ⟨true, false⟩ place path)
  change fun tree =>
    match tree.find? location with
    | some (.directory _) => tree.replace location (.directory modified)
    | _ => tree

end TreeRequest

end VmFleet
