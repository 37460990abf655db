/-
This file holds what a running machine owns on disk: its directory, the console
link that its runner makes, and the log of its runner. Preparing the directory
clears a console link that an earlier machine of the same identity left.
-/

import VmFleet.Images.Store

namespace VmFleet

/-- The places a running machine owns. -/
structure RunDirectory where
  directory : Path
  console : Path
  log : Path
deriving DecidableEq, Repr

namespace RunDirectory

open TreeRequest

/-- The places of the machine with the given identity. -/
def ofUuid (runRoot : Path) (uuid : String) : RunDirectory where
  directory := Layout.vmDirectory runRoot uuid
  console := Layout.console runRoot uuid
  log := Layout.log runRoot uuid

/-- Make the directory and clear an old console link. -/
def prepare (places : RunDirectory) : FileRequest Unit := do
  FileRequest.doing ("creating " ++ places.directory.display) (makePath [] places.directory)
  match ← attempt (removeFile [] places.console) with
  | .ok () => pure ()
  | .error .noEntry => pure ()
  | .error cause => throw (.io ("removing " ++ places.console.display) cause)

/-- Clear the console link of a machine that is gone, if it can be cleared. -/
def clearConsole (places : RunDirectory) (tree : Tree) : Tree :=
  ((removeFile [] places.console).run tree).2

end RunDirectory

end VmFleet
