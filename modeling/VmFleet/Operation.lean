/-
This file holds the operations of the daemon as clients name them, and what the
daemon says about itself. The name of an operation stands in logs and in the
complaint about an answer that did not come.
-/

import VmFleet.Text.Decimal

namespace VmFleet

open VmFleet.Text

/-- What a client can ask of the daemon. -/
inductive Operation
  | echo
  | imagesList
  | imagesRemove
  | vmList
  | vmRun
  | vmStop
  | vmIdentify
  | serverStop
deriving DecidableEq, Repr

namespace Operation

/-- Every operation, in the order of declaration. -/
def all : List Operation :=
  [.echo, .imagesList, .imagesRemove, .vmList, .vmRun, .vmStop, .vmIdentify, .serverStop]

/-- The name of an operation. -/
def name : Operation → String
  | .echo => "echo"
  | .imagesList => "images:list"
  | .imagesRemove => "images:remove"
  | .vmList => "vm:list"
  | .vmRun => "vm:run"
  | .vmStop => "vm:stop"
  | .vmIdentify => "vm:uuid2mac"
  | .serverStop => "server:stop"

end Operation

/-- What a daemon says about itself. -/
structure DaemonInfo where
  name : String
  version : String
  pid : Nat
  startedAt : UInt64
deriving DecidableEq, Repr

namespace DaemonInfo

/-- The name of the program. -/
def programName : String := "flotilla"

/-- The version of the program. -/
def programVersion : String := "0.1.0"

/-- What the daemon with a process number says. -/
def ofProcess (pid : Nat) (startedAt : UInt64) : DaemonInfo :=
  ⟨programName, programVersion, pid, startedAt⟩

/-- The reply to a request to end. -/
def farewell (info : DaemonInfo) : String :=
  info.name ++ " (pid " ++ ofNat info.pid ++ ") stopping"

/-- How a status report shows the daemon and the number of its machines. -/
def status (info : DaemonInfo) (machines : Nat) : String :=
  info.name ++ " " ++ info.version ++ " running (pid " ++ ofNat info.pid ++ ", started " ++
    ofNat info.startedAt.toNat ++ "), " ++ ofNat machines ++ " VM(s)"

end DaemonInfo

end VmFleet
