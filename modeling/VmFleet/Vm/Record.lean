/-
This file holds the record of one machine, as requests carry it and as answers
show it. A draft is a record that asks for a machine: its identity may be left
to the daemon, and it has neither a process nor an address yet.
-/

import VmFleet.Vm.State

namespace VmFleet

/-- The record of one machine. -/
structure Vm where
  uuid : String
  name : String
  mac : String
  channel : String
  version : String
  cpus : UInt32
  memoryMb : UInt64
  publicIp : String
  pid : Int
  createdAt : UInt64
  storage : List String
  cdrom : Option String
  kernelArgs : String
  runnerArgs : List String
  state : VmState
deriving DecidableEq, Repr

namespace Vm

/-- The identity of a draft that leaves it to the daemon. -/
def randomUuid : String := "random"

/-- The process number of a machine without a process. -/
def noPid : Int := -1

/-- A draft of a machine that boots the given image. -/
def draft (channel version : String) : Vm where
  uuid := randomUuid
  name := ""
  mac := ""
  channel := channel
  version := version
  cpus := 1
  memoryMb := 1024
  publicIp := ""
  pid := noPid
  createdAt := 0
  storage := []
  cdrom := none
  kernelArgs := ""
  runnerArgs := []
  state := .reserved

/-- A machine is operational once it has a process and an address. -/
def isOperational (vm : Vm) : Bool :=
  vm.publicIp != "" && vm.pid != noPid

end Vm

end VmFleet
