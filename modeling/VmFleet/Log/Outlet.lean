/-
This file holds the outlet of the daemon log. The log is written to from the very
start, but where its file lies is known only once the configuration is loaded.
So the outlet accepts everything and drops it until a file is attached. All its
writers share it, and attaching another file takes effect only when that file
could be opened.
-/

import VmFleet.Files.Change
import VmFleet.Text.Utf8

namespace VmFleet.Log

/-- The outlet: the file that is attached, if any. -/
structure Outlet where
  file : Option Location
deriving DecidableEq, Repr

namespace Outlet

/-- The outlet before anything is attached. -/
def unattached : Outlet :=
  ⟨none⟩

/-- Whether what is written arrives somewhere. -/
def isActive (outlet : Outlet) : Bool :=
  outlet.file.isSome

/-- Attach the file at a path, making it and the directories above it when they
are missing. -/
def attach (place : Location) (path : Path) : TreeRequest Cause Outlet := do
  match path.parent? with
  | some directory => TreeRequest.makePath place directory
  | none => pure ()
  let location ← TreeRequest.openToAppend place path
  pure ⟨some location⟩

/-- Write octets, and tell how many were accepted. -/
def write (outlet : Outlet) (octets : List UInt8) : TreeRequest Cause Nat := do
  match outlet.file with
  | some location => TreeRequest.append location octets
  | none => pure ()
  pure octets.length

end Outlet

end VmFleet.Log
