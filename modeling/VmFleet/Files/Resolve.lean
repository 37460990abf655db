/-
This file follows paths through a tree. Each step needs a directory to stand in;
a symbolic link puts the steps of its target in front of those that are left, at
most forty times for one path. The walk is a recursion on the steps inside a
recursion on the links that may still be followed, so it always ends.
-/

import VmFleet.Files.Cause
import VmFleet.Files.Tree

namespace VmFleet

/-- What the last step of a path may meet. -/
structure LastStep where
  /-- A link there is followed. -/
  follow : Bool
  /-- Nothing needs to stand there. -/
  absent : Bool
deriving DecidableEq, Repr

namespace Tree

/-- How many links one path may lead through. -/
def linkLimit : Nat := 40

/-- The longest name, in octets. -/
def nameLimit : Nat := 255

/-- The longest path, in octets. -/
def pathLimit : Nat := 4095

/-- Where a path starts: at the root, or at the given place. -/
def startOf (path : Path) (place : Location) : Location :=
  if path.isAbsolute then [] else place

/-- Walk the steps from a place. What to do at a link is handed in. -/
def walkSteps (tree : Tree) (last : LastStep)
    (atLink : Location → List FileName → Except Cause Location) :
    Location → List FileName → Except Cause Location
  | place, [] => .ok place
  | place, step :: steps =>
    if !tree.isDirectoryAt place then .error .notDirectory
    else if step = Path.here then walkSteps tree last atLink place steps
    else if step = Path.above then walkSteps tree last atLink place.tail steps
    else if step.length > nameLimit then .error .nameTooLong
    else
      match tree.find? (step :: place) with
      | none =>
        if steps.isEmpty && last.absent then .ok (step :: place) else .error .noEntry
      | some (.link target) =>
        if steps.isEmpty && !last.follow then .ok (step :: place)
        else atLink (startOf target place) (target.steps ++ steps)
      | some _ => walkSteps tree last atLink (step :: place) steps

/-- Walk the steps from a place with so many links still allowed. -/
def walk (tree : Tree) (last : LastStep) : Nat → Location → List FileName → Except Cause Location
  | 0 => walkSteps tree last fun _ _ => .error .linkLoop
  | links + 1 => walkSteps tree last (walk tree last links)

/-- Where a path leads when it is read at a place. -/
def resolve (tree : Tree) (last : LastStep) (place : Location) (path : Path) :
    Except Cause Location :=
  if path.octets.contains 0 then .error .zeroOctet
  else if path.octets.isEmpty then .error .noEntry
  else if path.octets.length > pathLimit then .error .nameTooLong
  else walk tree last linkLimit (startOf path place) path.steps

/-- What a path leads to, through links. -/
def status (tree : Tree) (place : Location) (path : Path) : Except Cause Node := do
  let location ← tree.resolve ⟨true, false⟩ place path
  match tree.find? location with
  | some node => .ok node
  | none => .error .noEntry

/-- Whether a path leads to anything. -/
def pathExists (tree : Tree) (place : Location) (path : Path) : Bool :=
  match tree.status place path with
  | .ok _ => true
  | .error _ => false

/-- Whether a path leads to a file. -/
def isFile (tree : Tree) (place : Location) (path : Path) : Bool :=
  match tree.status place path with
  | .ok (.file _) => true
  | _ => false

/-- Whether a path leads to a directory. -/
def isDirectory (tree : Tree) (place : Location) (path : Path) : Bool :=
  match tree.status place path with
  | .ok (.directory _) => true
  | _ => false

/-- The path of a location: absolute, and free of links and of steps that stay
or go up. -/
def pathOf (location : Location) : Path :=
  Path.ofParts true location.reverse

/-- The absolute path of what a path leads to, if that is a path one can use. -/
def canonical (tree : Tree) (place : Location) (path : Path) : Except Cause Path := do
  let settled := pathOf (← tree.resolve ⟨true, false⟩ place path)
  if settled.octets.length > pathLimit then .error .nameTooLong else .ok settled

/-- The names in the directory that a path leads to. -/
def listing (tree : Tree) (place : Location) (path : Path) :
    Except Cause (Location × List FileName) := do
  let location ← tree.resolve ⟨true, false⟩ place path
  if tree.isDirectoryAt location then .ok (location, tree.namesAt location)
  else .error .notDirectory

/-- The content of the file that a path leads to. -/
def content (tree : Tree) (place : Location) (path : Path) : Except Cause (List UInt8) := do
  match ← tree.status place path with
  | .file content => .ok content
  | .directory _ => .error .isDirectory
  | _ => .ok []

end Tree

end VmFleet
