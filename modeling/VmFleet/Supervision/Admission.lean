/-
This file admits machines. Admission looks at everything the lock guards and
changes it in one piece: a daemon that is closing admits nothing, the memory of
all machines with the new one must stay within the ceiling, and the identity is
found and taken together, so no two requests can hold it. What a draft says about
its process, its address, its age and its state is never believed. Sums of memory
are taken in words of 64 bits, and a sum that leaves them ends the request in the
middle of its admission.
-/

import VmFleet.Images.Index
import VmFleet.Registry.Identity
import VmFleet.Registry.Selection
import VmFleet.Supervision.Settings
import VmFleet.Text.Decimal

namespace VmFleet

/-- What the lock of the daemon guards. -/
structure Shared where
  registry : Registry
  media : ImageIndex
  /-- No machine is admitted any more. -/
  closing : Bool
deriving Repr

/-- What a request for admission comes to. -/
inductive Ruling
  | admitted (vm : Vm)
  | refused (error : FleetError)
  /-- The sum of the memory could not be told, and the request broke off. -/
  | broken

/-- How a request for admission ended, and what it asked on the way. -/
structure Admission where
  shared : Shared
  outcome : Ruling
  asked : List String
  drawn : Nat

namespace Shared

/-- The shared state of a daemon that has just started. -/
def initial : Shared :=
  ⟨Registry.empty, Keyed.empty, false⟩

/-- The record of a machine that has its identity and nothing else yet. -/
def enrol (vm : Vm) (identity : Identity) (time : UInt64) : Vm :=
  { vm with
    uuid := identity.uuid
    mac := identity.mac
    name := if vm.name = "" then identity.uuid else vm.name
    pid := Vm.noPid
    publicIp := ""
    state := .reserved
    createdAt := time }

/-- The memory that would be claimed with one machine more, if a word can tell it. -/
def claimedWith? (shared : Shared) (vm : Vm) : Option Nat :=
  let sum := shared.registry.committedMb + vm.memoryMb.toNat
  if sum < Text.word64 then some sum else none

/-- Admit a machine, or say why not. Only an admission changes anything. -/
def accept (shared : Shared) (settings : Settings) (macs : MacSource) (draws : Nat → Uuid)
    (time : UInt64) (token : HaltToken) (draft : Vm) : Admission :=
  let vm := settings.fit draft
  if shared.closing then
    ⟨shared, .refused (.validation "daemon is shutting down"), [], 0⟩
  else
    match shared.claimedWith? vm with
    | none => ⟨shared, .broken, [], 0⟩
    | some total =>
      if total > settings.ceilingMb.toNat then
        ⟨shared, .refused (.resourceBound total settings.ceilingMb.toNat), [], 0⟩
      else
        let search := shared.registry.resolveIdentity macs draws vm.uuid
        match search.outcome with
        | .error error => ⟨shared, .refused error, search.asked, search.drawn⟩
        | .ok identity =>
          let enrolled := enrol vm identity time
          match shared.registry.reserve enrolled token with
          | .error error => ⟨shared, .refused error, search.asked, search.drawn⟩
          | .ok registry =>
            ⟨{ shared with registry }, .admitted enrolled, search.asked, search.drawn⟩

/-- Ask the machines that the targets mean to end. -/
def stop (shared : Shared) (targets : List String) : Shared × List String :=
  let (registry, asked) := shared.registry.halt (shared.registry.select targets)
  ({ shared with registry }, asked)

/-- Admit nothing any more and ask every machine to end. -/
def shutDown (shared : Shared) : Shared × List String :=
  { shared with closing := true }.stop []

end Shared

end VmFleet
