/-
This file holds the registry of machines: one entry per identity, each with the
record of the machine and the token whose cancellation asks its runner to end.
Tokens are named by the caller and outlive their entries, so the registry keeps
the cancelled ones apart from its rows. A state changes only by a legal move.
-/

import VmFleet.Error
import VmFleet.Keyed
import VmFleet.Number.Total
import VmFleet.Vm.Record

namespace VmFleet

/-- What asks a runner to end. -/
abbrev HaltToken := Nat

/-- The record of a machine with its token. -/
structure RegistryEntry where
  vm : Vm
  halt : HaltToken
deriving DecidableEq, Repr

/-- The machines there are, and the tokens that were cancelled. -/
structure Registry where
  active : Keyed RegistryEntry
  cancelled : List HaltToken
deriving DecidableEq, Repr

namespace Registry

/-- A registry without machines. -/
def empty : Registry :=
  ⟨Keyed.empty, []⟩

/-- How many machines there are. -/
def size (registry : Registry) : Nat :=
  registry.active.rows.length

/-- Whether an identity is taken. -/
def contains (registry : Registry) (uuid : String) : Bool :=
  registry.active.contains uuid

/-- The record of an identity. -/
def find? (registry : Registry) (uuid : String) : Option Vm :=
  (registry.active.find? uuid).map (·.vm)

/-- Whether a token was cancelled. -/
def isCancelled (registry : Registry) (token : HaltToken) : Bool :=
  registry.cancelled.contains token

/-- Cancel a token. -/
def cancel (registry : Registry) (token : HaltToken) : Registry :=
  if registry.isCancelled token then registry
  else { registry with cancelled := registry.cancelled ++ [token] }

/-- Older first, and of two machines of one age the smaller identity first. -/
def notYounger (left right : Vm) : Bool :=
  left.createdAt < right.createdAt ||
    (left.createdAt == right.createdAt && !(right.uuid < left.uuid))

/-- Every record, from the oldest to the youngest. -/
def snapshot (registry : Registry) : List Vm :=
  (registry.active.values.map (·.vm)).mergeSort notYounger

/-- The memory that all machines claim, as an exact sum. -/
def committedMb (registry : Registry) : Nat :=
  total (registry.active.values.map (·.vm.memoryMb.toNat))

/-- Put in a machine under the identity in its record, if that one is free. -/
def reserve (registry : Registry) (vm : Vm) (halt : HaltToken) : Except FleetError Registry :=
  if registry.contains vm.uuid then
    .error (.validation ("UUID " ++ vm.uuid ++ " is already active"))
  else .ok { registry with active := registry.active.insert vm.uuid ⟨vm, halt⟩ }

/-- Whether the machine of an identity may move to a state. -/
def mayMove (registry : Registry) (uuid : String) (next : VmState) : Bool :=
  match registry.find? uuid with
  | some vm => !vm.state.isTerminal && vm.state.canMove next
  | none => false

/-- Change the record of an identity, if there is one. -/
def update (registry : Registry) (uuid : String) (change : Vm → Vm) : Registry :=
  { registry with
    active := registry.active.modify uuid fun entry => { entry with vm := change entry.vm } }

/-- Move the machine of an identity to a state, if it may. -/
def setState (registry : Registry) (uuid : String) (next : VmState) : Registry :=
  if registry.mayMove uuid next then registry.update uuid fun vm => { vm with state := next }
  else registry

/-- The registry without the machine of an identity. -/
def remove (registry : Registry) (uuid : String) : Registry :=
  { registry with active := registry.active.erase uuid }

end Registry

end VmFleet
