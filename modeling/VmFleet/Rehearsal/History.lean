/-
This file holds the histories of a rehearsal. An action is something that is asked
of the daemon or of the clock, and its answer is what was learnt; a history is a
row of actions, each of which finds the fleet as the one before left it. Lists of
machines are given in the order in which their identities were found, since a
clock that does not move leaves no other order of age.
-/

import VmFleet.Rehearsal.Fleet

namespace VmFleet.Rehearsal

/-- What can be asked of a rehearsal. -/
inductive Action
  /-- Ask for a machine and wait until its boot is over. -/
  | run (draft : Vm)
  /-- Ask for a machine in the background. -/
  | start (draft : Vm)
  /-- Wait for the machine of an earlier request. -/
  | wait (serial : Nat)
  | advance (milliseconds : Nat)
  | stop (targets : List String)
  | shutDown
  /-- Wait until no work is left. -/
  | drain
  | list
  | identify (uuid : String)
  | listImages
  | removeImage (channel version : String)
  /-- Somebody else changes the files. -/
  | disturb (change : Tree → Tree)
  /-- Ask the daemon to end soon. -/
  | close
  /-- Forget the calls of the runner so far. -/
  | forgetCalls

/-- What is learnt from an action. -/
inductive Answer
  /-- How a boot ended and when, if it did. -/
  | boot (outcome : Option (Except FleetError Vm × Nat))
  /-- The serial number of a request. -/
  | request (serial : Nat)
  | machines (vms : List Vm)
  | identities (uuids : List String)
  | identity (outcome : Except FleetError Identity)
  | images (outcome : Except FleetError (List ChannelImages))
  /-- Whether all work was done in time. -/
  | drained (done : Bool)
  | calls (plans : List BootPlan)
  | nothing

namespace Fleet

/-- The fleet after an action, and what was learnt. -/
def act (fleet : Fleet) : Action → Fleet × Answer
  | .run draft =>
    let (begun, serial) := fleet.start draft
    let ended := begun.await serial
    (ended, .boot (ended.answer? serial))
  | .start draft =>
    let (begun, serial) := fleet.start draft
    (begun, .request serial)
  | .wait serial =>
    let ended := fleet.await serial
    (ended, .boot (ended.answer? serial))
  | .advance milliseconds => (fleet.advance milliseconds, .nothing)
  | .stop targets =>
    let (fleet, asked) := fleet.stop targets
    (fleet, .identities (if targets.isEmpty then fleet.byDiscovery id asked else asked))
  | .shutDown =>
    let (fleet, asked) := fleet.shutDown
    (fleet, .identities (fleet.byDiscovery id asked))
  | .drain =>
    let (fleet, done) := fleet.drain
    (fleet, .drained done)
  | .list => (fleet, .machines (fleet.byDiscovery (·.uuid) fleet.daemon.list))
  | .identify uuid =>
    let (fleet, outcome) := fleet.lookUpIdentity uuid
    (fleet, .identity outcome)
  | .listImages =>
    let (daemon, outcome) := fleet.daemon.listImages
    ({ fleet with daemon }, .images outcome)
  | .removeImage channel version =>
    let (daemon, outcome) := fleet.daemon.removeImage channel version
    ({ fleet with daemon }, .images outcome)
  | .disturb change =>
    ({ fleet with daemon := { fleet.daemon with tree := change fleet.daemon.tree } }, .nothing)
  | .close => (fleet.close, .nothing)
  | .forgetCalls => ({ fleet with calls := [] }, .calls fleet.calls)

/-- The fleet after a history. -/
def play (fleet : Fleet) (history : List Action) : Fleet :=
  history.foldl (fun fleet action => (fleet.act action).1) fleet

end Fleet

end VmFleet.Rehearsal
