/-
This file settles the paths of volumes where the client stands, so that they mean
the same to a daemon that stands elsewhere. A settled path is absolute and free of
links; it is sent as text.
-/

import VmFleet.Error
import VmFleet.Files.Resolve

namespace VmFleet.Client

/-- The text of the absolute path of what a path leads to. -/
def absolutize (tree : Tree) (place : Location) (path : Path) : Except FleetError String :=
  match tree.canonical place path with
  | .ok settled => .ok settled.display
  | .error cause => .error (.io ("resolving " ++ path.display) cause)

end VmFleet.Client
