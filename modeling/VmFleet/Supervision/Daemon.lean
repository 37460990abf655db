/-
This file holds the daemon as a state that moves in atomic steps. A request to
run a machine goes through phases; from the start of its process on, a race
waits for the address and a reaper waits for the end of the process, and both
move on their own. A step is either a section under the lock, one settlement of
the outcome of a boot, or something that happens outside: a process starts, says
something, falls silent or ends, or a deadline passes. Any order of steps is a
run of the daemon. A request breaks off where it meets a number that cannot be
told: a sum of memory before its machine is registered, or the deadline of its
boot when its process has been started and recorded.
-/

import VmFleet.Boot.Plan
import VmFleet.Boot.Signal
import VmFleet.Config.Basic
import VmFleet.Number.Total
import VmFleet.Supervision.Admission

namespace VmFleet

/-- What does not change while a daemon runs. -/
structure Setup where
  settings : Settings
  store : ImageStore
  runner : Path
  macs : MacSource

/-- How far the request to run a machine has come. -/
inductive RequestPhase
  | arrived
  /-- The sum of the memory could not be told: the request broke off unanswered. -/
  | unjudged
  | reserved
  /-- The call of the runner is planned. -/
  | planned (plan : BootPlan)
  /-- The runner is about to be started. -/
  | launching (plan : BootPlan)
  /-- The reservation is to be undone. -/
  | undoing (error : FleetError)
  /-- The process was started and is to be handed over. -/
  | started
  /-- The deadline could not be told: the request broke off unanswered, and nobody took
  over. -/
  | abandoned
  /-- The race and the reaper have taken over. -/
  | waiting
  | answered (outcome : Except FleetError Vm)

/-- How far the race for the address has come. -/
inductive RacePhase
  | absent
  | listening
  /-- The runner stopped talking; only the deadline or a settlement counts. -/
  | deaf
  /-- An address was heard and is to be recorded. -/
  | heard (address : String)
  /-- The address was recorded, if the machine was still there. -/
  | recorded (ready : Option Vm)
  /-- The deadline passed and the outcome is to be settled. -/
  | struck
  /-- The outcome was settled by the deadline. -/
  | lapsed
  | finished
deriving DecidableEq, Repr

/-- How far the reaper of a process has come. -/
inductive ReaperPhase
  | absent
  | watching
  /-- The process ended and the machine is to be deregistered. -/
  | exited
  | deregistered
  /-- The console link is to be cleared. -/
  | settled
  /-- Trailing output is given time. -/
  | grace
  | finished
deriving DecidableEq, Repr

/-- One request to run a machine, with everything that follows it. -/
structure Boot where
  draft : Vm
  /-- The record as it was reserved; the draft before that. -/
  vm : Vm
  /-- The process number, once there is a process. -/
  pid : Int
  request : RequestPhase
  race : RacePhase
  reaper : ReaperPhase
  signal : BootSignal

/-- A started process, and whether it made its console link at once. -/
structure Spawned where
  pid : Nat
  console : Bool
deriving DecidableEq, Repr

/-- The daemon: its files, what its lock guards, its requests in order of
arrival, and how many hardware addresses it has asked for. The place of a request
in the row is its serial number and the name of its token. -/
structure Daemon where
  setup : Setup
  tree : Tree
  shared : Shared
  boots : List Boot
  derivations : Nat

namespace RequestPhase

/-- A request that has its answer or broke off is no work any more. -/
def isOpen : RequestPhase → Bool
  | answered _ => false
  | unjudged => false
  | abandoned => false
  | _ => true

/-- The request has its answer. -/
def isAnswered : RequestPhase → Bool
  | answered _ => true
  | _ => false

end RequestPhase

namespace RacePhase

/-- A race that was started and is not over is work. -/
def isOpen : RacePhase → Bool
  | absent => false
  | finished => false
  | _ => true

end RacePhase

namespace ReaperPhase

/-- A reaper that was started and is not over is work. -/
def isOpen : ReaperPhase → Bool
  | absent => false
  | finished => false
  | _ => true

end ReaperPhase

namespace Boot

/-- A request that has just arrived. -/
def ofDraft (draft : Vm) : Boot :=
  ⟨draft, draft, Vm.noPid, .arrived, .absent, .absent, .pending⟩

/-- A request once its admission was ruled on. -/
def ruled (boot : Boot) : Ruling → Boot
  | .admitted vm => { boot with vm, request := .reserved }
  | .refused error => { boot with request := .answered (.error error) }
  | .broken => { boot with request := .unjudged }

/-- How many pieces of work a request has going. -/
def jobs (boot : Boot) : Nat :=
  boot.request.isOpen.toNat + boot.race.isOpen.toNat + boot.reaper.isOpen.toNat

/-- The answer that a settled outcome gives. -/
def answerOf (name : String) (bootTimeout : UInt64) : BootSignal → Except FleetError Vm
  | .ready vm => .ok vm
  | .timedOut => .error (.bootTimeout name bootTimeout.toNat)
  | .terminatedEarly => .error (.terminatedEarly name)
  | .pending => .error (.terminatedEarly name)

end Boot

namespace Daemon

/-- A daemon that has just started. -/
def initial (setup : Setup) (tree : Tree) : Daemon :=
  ⟨setup, tree, Shared.initial, [], 0⟩

/-- The work that is going on. -/
def jobs (daemon : Daemon) : Nat :=
  total (daemon.boots.map (·.jobs))

/-- The request with a serial number. -/
def boot? (daemon : Daemon) (serial : Nat) : Option Boot :=
  daemon.boots[serial]?

/-- Put a request in place of the one with its serial number. -/
def put (daemon : Daemon) (serial : Nat) (boot : Boot) : Daemon :=
  { daemon with boots := daemon.boots.set serial boot }

/-- Change what the lock guards among the machines. -/
def withRegistry (daemon : Daemon) (change : Registry → Registry) : Daemon :=
  { daemon with shared := { daemon.shared with registry := change daemon.shared.registry } }

/-- The places of a machine. -/
def placesOf (daemon : Daemon) (boot : Boot) : RunDirectory :=
  RunDirectory.ofUuid daemon.setup.settings.runRoot boot.vm.uuid

/-- The hardware addresses, counted from the start of the daemon. -/
def macs (daemon : Daemon) : MacSource := fun asked =>
  daemon.setup.macs (daemon.derivations + asked)

/-! ### The request -/

/-- A request arrives. -/
def submit (daemon : Daemon) (draft : Vm) : Daemon :=
  { daemon with boots := daemon.boots ++ [Boot.ofDraft draft] }

/-- What becomes of the draft of a request, if it is judged now. -/
def admission (daemon : Daemon) (serial : Nat) (boot : Boot) (draws : Nat → Uuid)
    (time : UInt64) : Admission :=
  daemon.shared.accept daemon.setup.settings daemon.macs draws time serial boot.draft

/-- Under the lock: admit the machine. -/
def reserve (daemon : Daemon) (serial : Nat) (boot : Boot) (draws : Nat → Uuid) (time : UInt64) :
    Daemon :=
  let admission := daemon.admission serial boot draws time
  { daemon with
    shared := admission.shared
    derivations := daemon.derivations + admission.asked.length }.put serial
      (boot.ruled admission.outcome)

/-- Prepare the places of the machine and plan the call of its runner. -/
def prepare (daemon : Daemon) (serial : Nat) (boot : Boot) : Daemon :=
  let places := daemon.placesOf boot
  let (outcome, tree) := (places.prepare.run) daemon.tree
  let planned := outcome.bind fun () =>
    BootPlan.make daemon.setup.store daemon.setup.runner boot.vm places tree
  let request := match planned with
    | .ok plan => .planned plan
    | .error error => .undoing error
  { daemon with tree }.put serial { boot with request }

/-- Under the lock: undo the reservation and answer. -/
def rollBack (daemon : Daemon) (serial : Nat) (boot : Boot) (error : FleetError) : Daemon :=
  (daemon.withRegistry (·.remove boot.vm.uuid)).put serial
    { boot with request := .answered (.error error) }

/-- Under the lock: announce that the runner is about to be started. -/
def announce (daemon : Daemon) (serial : Nat) (boot : Boot) (plan : BootPlan) : Daemon :=
  (daemon.withRegistry (·.setState boot.vm.uuid .spawning)).put serial
    { boot with request := .launching plan }

/-- The console link a runner makes. It is only made where it can be. -/
def makeConsole (daemon : Daemon) (boot : Boot) : Daemon :=
  { daemon with
    tree := ((TreeRequest.writeFile [] (daemon.placesOf boot).console []).run daemon.tree).2 }

/-- The runner was started, or could not be. -/
def launch (daemon : Daemon) (serial : Nat) (boot : Boot) (outcome : Except FleetError Spawned) :
    Daemon :=
  match outcome with
  | .ok spawned =>
    let daemon := if spawned.console then daemon.makeConsole boot else daemon
    daemon.put serial { boot with pid := spawned.pid, request := .started }
  | .error error =>
    daemon.put serial
      { boot with request := .undoing (.spawnFailed boot.vm.name error.flatten) }

/-- Under the lock: record the process of a machine. -/
def recordProcess (daemon : Daemon) (boot : Boot) : Daemon :=
  daemon.withRegistry fun registry =>
    (registry.update boot.vm.uuid fun vm => { vm with pid := boot.pid }).setState boot.vm.uuid
      .awaitingAddress

/-- Start the race and the reaper of a machine. -/
def startWatch (daemon : Daemon) (serial : Nat) (boot : Boot) : Daemon :=
  daemon.put serial { boot with request := .waiting, race := .listening, reaper := .watching }

/-- Leave a machine to itself. -/
def abandon (daemon : Daemon) (serial : Nat) (boot : Boot) : Daemon :=
  daemon.put serial { boot with request := .abandoned }

/-- Record the process of a machine, and hand it over to the race and the reaper if its
deadline can be told now. -/
def handOver (daemon : Daemon) (serial : Nat) (boot : Boot) (now : Int) : Daemon :=
  let recorded := daemon.recordProcess boot
  match Config.later? now daemon.setup.settings.bootTimeout with
  | some _ => recorded.startWatch serial boot
  | none => recorded.abandon serial boot

/-- Answer with the settled outcome. -/
def answer (daemon : Daemon) (serial : Nat) (boot : Boot) : Daemon :=
  daemon.put serial
    { boot with
      request := .answered
        (Boot.answerOf boot.vm.name daemon.setup.settings.bootTimeout boot.signal) }

/-! ### The race for the address -/

/-- Under the lock: record the address and keep a copy of the record, if there is
one. The move to running may be refused; the record is taken as it then is. -/
def recordAddress (daemon : Daemon) (serial : Nat) (boot : Boot) (address : String) : Daemon :=
  let daemon := daemon.withRegistry fun registry =>
    (registry.update boot.vm.uuid fun vm =>
      { vm with publicIp := address, pid := boot.pid }).setState boot.vm.uuid .running
  daemon.put serial
    { boot with race := .recorded (daemon.shared.registry.find? boot.vm.uuid) }

/-- Settle the outcome with the recorded machine. -/
def settleAddress (daemon : Daemon) (serial : Nat) (boot : Boot) (ready : Option Vm) : Daemon :=
  let status := match ready with
    | some vm => .ready vm
    | none => .terminatedEarly
  daemon.put serial { boot with race := .finished, signal := (boot.signal.settle status).1 }

/-- Settle the outcome because the deadline passed, if it is still open. -/
def settleDeadline (daemon : Daemon) (serial : Nat) (boot : Boot) : Daemon :=
  let (signal, first) := boot.signal.settle .timedOut
  daemon.put serial { boot with signal, race := if first then .lapsed else .finished }

/-- Under the lock: show the machine as failed and ask its runner to end. -/
def markFailed (daemon : Daemon) (serial : Nat) (boot : Boot) : Daemon :=
  (daemon.withRegistry fun registry =>
    (registry.setState boot.vm.uuid .failed).cancel serial).put serial
    { boot with race := .finished }

/-! ### The reaper -/

/-- Under the lock: take the machine out of the registry. -/
def deregister (daemon : Daemon) (serial : Nat) (boot : Boot) : Daemon :=
  (daemon.withRegistry (·.remove boot.vm.uuid)).put serial { boot with reaper := .deregistered }

/-- Settle the outcome because the process ended, if it is still open. -/
def settleExit (daemon : Daemon) (serial : Nat) (boot : Boot) : Daemon :=
  daemon.put serial
    { boot with reaper := .settled, signal := (boot.signal.settle .terminatedEarly).1 }

/-- Clear the console link. -/
def clearConsole (daemon : Daemon) (serial : Nat) (boot : Boot) : Daemon :=
  { daemon with tree := (daemon.placesOf boot).clearConsole daemon.tree }.put serial
    { boot with reaper := .grace }

/-! ### The other operations -/

/-- Ask the machines that the targets mean to end. -/
def stop (daemon : Daemon) (targets : List String) : Daemon × List String :=
  let (shared, asked) := daemon.shared.stop targets
  ({ daemon with shared }, asked)

/-- Admit nothing any more and ask every machine to end. -/
def shutDown (daemon : Daemon) : Daemon × List String :=
  let (shared, asked) := daemon.shared.shutDown
  ({ daemon with shared }, asked)

/-- The machines, from the oldest to the youngest. -/
def list (daemon : Daemon) : List Vm :=
  daemon.shared.registry.snapshot

/-- Find an identity without taking it. -/
def lookUpIdentity (daemon : Daemon) (draws : Nat → Uuid) (requested : String) :
    Daemon × IdentitySearch :=
  let search := daemon.shared.registry.resolveIdentity daemon.macs draws requested
  ({ daemon with derivations := daemon.derivations + search.asked.length }, search)

/-- Under the lock: scan the store and keep the index. A scan that fails leaves
the index as it was, though it may have taken directories away. -/
def listImages (daemon : Daemon) : Daemon × Except FleetError (List ChannelImages) :=
  let (outcome, tree) := daemon.setup.store.scan.run daemon.tree
  match outcome with
  | .ok media =>
    ({ daemon with tree, shared := { daemon.shared with media } },
      .ok (ImageIndex.listing media))
  | .error error => ({ daemon with tree }, .error error)

/-- Under the lock: take a version out of the index. -/
def takeImage (daemon : Daemon) (channel version : String) :
    Daemon × Except FleetError Version :=
  match ImageIndex.take daemon.shared.media channel version with
  | .ok (taken, media) => ({ daemon with shared := { daemon.shared with media } }, .ok taken)
  | .error error => (daemon, .error error)

/-- Take the directory of a version away. -/
def deleteImage (daemon : Daemon) (channel : String) (version : Version) :
    Daemon × Except FleetError Unit :=
  let (outcome, tree) := (daemon.setup.store.deleteVersion channel version).run daemon.tree
  ({ daemon with tree }, outcome)

/-- Remove an image: out of the index, off the disk, and a fresh listing. -/
def removeImage (daemon : Daemon) (channel version : String) :
    Daemon × Except FleetError (List ChannelImages) :=
  match daemon.takeImage channel version with
  | (daemon, .error error) => (daemon, .error error)
  | (daemon, .ok taken) =>
    match daemon.deleteImage channel taken with
    | (daemon, .error error) => (daemon, .error error)
    | (daemon, .ok ()) => daemon.listImages

end Daemon

end VmFleet
