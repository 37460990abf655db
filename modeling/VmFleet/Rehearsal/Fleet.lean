/-
This file rehearses the daemon: its runners follow scripts, and a clock in
milliseconds moves only when everything waits. At one instant all work that is
due is done, in the order of the requests; then the clock jumps to the next
moment of some runner or deadline. Every change of the daemon is one of its own
events, so a rehearsal shows one of its runs.
-/

import VmFleet.Operation
import VmFleet.Rehearsal.Runner
import VmFleet.Supervision.Step

namespace VmFleet.Rehearsal

/-- A daemon under rehearsal. -/
structure Fleet where
  daemon : Daemon
  now : Nat
  /-- The scripts of the runners that are still to be started. -/
  scripts : List Script
  nextPid : Nat
  /-- The runners that were started. -/
  guests : List Guest
  /-- Where drawn identities come from, and how many were drawn. -/
  source : Nat → Uuid
  drawn : Nat
  /-- The identities that were found, in that order. -/
  found : List Identity
  /-- The calls of the runner since they were last looked at. -/
  calls : List BootPlan
  /-- When each request was answered. -/
  answeredAt : List (Nat × Nat)
  /-- When the daemon ends after it was asked to. -/
  closesAt : Option Nat

namespace Fleet

/-- A daemon before its first request, at time zero. -/
def initial (daemon : Daemon) (scripts : List Script) (source : Nat → Uuid) : Fleet :=
  ⟨daemon, 0, scripts, 100, [], source, 0, [], [], [], none⟩

/-- The identities that are drawn from here on. -/
def draws (fleet : Fleet) : Nat → Uuid := fun number =>
  fleet.source (fleet.drawn + number)

/-- The runner of a request. -/
def guest? (fleet : Fleet) (serial : Nat) : Option Guest :=
  fleet.guests.find? (·.serial == serial)

/-- Milliseconds in whole seconds. -/
def milliseconds (seconds : UInt64) : Nat :=
  1000 * seconds.toNat

/-- The deadline of the boot of a runner. -/
def deadline (fleet : Fleet) (guest : Guest) : Nat :=
  guest.startedAt + milliseconds fleet.daemon.setup.settings.bootTimeout

/-- When the time for trailing output is over. -/
def graceEnds (fleet : Fleet) (guest : Guest) : Option Nat :=
  guest.endedAt.map (· + milliseconds fleet.daemon.setup.settings.reapGrace)

/-! ### What is due -/

/-- What the next runner makes of an attempt to start it. -/
def nextStart (fleet : Fleet) : Except FleetError Spawned :=
  let script := fleet.scripts.head?.getD Script.quiet
  match script.refusal with
  | some error => .error error
  | none => .ok ⟨fleet.nextPid, script.console⟩

/-- Whether a moment has come. -/
def reached (fleet : Fleet) (moment : Option Nat) : Bool :=
  moment.any (· ≤ fleet.now)

/-- What the race of a request does now. -/
def raceEvent? (fleet : Fleet) (serial : Nat) (boot : Boot) : Option Event := do
  let guest ← fleet.guest? serial
  match boot.race with
  | .listening =>
    if !boot.signal.isPending then some (.notice serial)
    else if fleet.reached guest.reportsAt then some (.hear serial guest.address)
    else if fleet.reached (some (fleet.deadline guest)) then some (.strike serial)
    else if fleet.reached guest.silentAt then some (.fallSilent serial)
    else none
  | .deaf =>
    if !boot.signal.isPending then some (.notice serial)
    else if fleet.reached (some (fleet.deadline guest)) then some (.strike serial)
    else none
  | .heard _ => some (.recordAddress serial)
  | .recorded _ => some (.settleAddress serial)
  | .struck => some (.settleDeadline serial)
  | .lapsed => some (.markFailed serial)
  | .absent => none
  | .finished => none

/-- What the reaper of a request does now. -/
def reaperEvent? (fleet : Fleet) (serial : Nat) (boot : Boot) : Option Event := do
  let guest ← fleet.guest? serial
  match boot.reaper with
  | .watching => if fleet.reached guest.endsAt then some (.exit serial) else none
  | .exited => some (.deregister serial)
  | .deregistered => some (.settleExit serial)
  | .settled => some (.clearConsole serial)
  | .grace => if fleet.reached (fleet.graceEnds guest) then some (.finish serial) else none
  | .absent => none
  | .finished => none

/-- What a request does now. -/
def requestEvent? (fleet : Fleet) (serial : Nat) (boot : Boot) : Option Event :=
  match boot.request with
  | .arrived => some (.reserve serial fleet.draws 0)
  | .reserved => some (.prepare serial)
  | .planned _ => some (.announce serial)
  | .launching _ => some (.launch serial fleet.nextStart)
  | .undoing _ => some (.rollBack serial)
  | .started => some (.handOver serial (fleet.now / 1000 : Nat))
  | .waiting => if boot.signal.isPending then none else some (.answer serial)
  | .answered _ => none
  | .unjudged => none
  | .abandoned => none

/-- What happens next at this instant, with the request it happens to. -/
def due? (fleet : Fleet) : Option (Nat × Boot × Event) :=
  (fleet.daemon.boots.zipIdx).findSome? fun (boot, serial) =>
    (((fleet.requestEvent? serial boot).or (fleet.raceEvent? serial boot)).or
      (fleet.reaperEvent? serial boot)).map (serial, boot, ·)

/-! ### Bookkeeping -/

/-- Note which identity an admission found and how many it drew. -/
def noteAdmission (fleet : Fleet) (serial : Nat) (boot : Boot) : Fleet :=
  let admission := fleet.daemon.admission serial boot fleet.draws 0
  let found := match admission.outcome with
    | .admitted vm => [⟨vm.mac, vm.uuid⟩]
    | _ => []
  { fleet with drawn := fleet.drawn + admission.drawn, found := fleet.found ++ found }

/-- Note an attempt to start a runner. -/
def noteLaunch (fleet : Fleet) (serial : Nat) (boot : Boot) : Fleet :=
  let called := match boot.request with
    | .launching plan => { fleet with calls := fleet.calls ++ [plan] }
    | _ => fleet
  let script := fleet.scripts.head?.getD Script.quiet
  let begun := { called with scripts := fleet.scripts.tail }
  if script.refusal.isSome then begun
  else
    { begun with
      nextPid := fleet.nextPid + 1
      guests := fleet.guests ++ [⟨serial, script, fleet.nextPid, fleet.now, none, none⟩] }

/-- Note the end of a runner. -/
def noteExit (fleet : Fleet) (serial : Nat) : Fleet :=
  { fleet with
    guests := fleet.guests.map fun guest =>
      if guest.serial = serial then { guest with endedAt := some fleet.now } else guest }

/-- Note which runners have been asked to end. -/
def noteHalts (fleet : Fleet) : Fleet :=
  { fleet with
    guests := fleet.guests.map fun guest =>
      if guest.haltedAt.isNone && fleet.daemon.shared.registry.isCancelled guest.serial
      then { guest with haltedAt := some fleet.now } else guest }

/-- Note that a request has its answer, if it has. -/
def noteAnswer (fleet : Fleet) (serial : Nat) : Fleet :=
  let answered := (fleet.daemon.boot? serial).any (·.request.isAnswered)
  if !answered || fleet.answeredAt.any (·.1 == serial) then fleet
  else { fleet with answeredAt := fleet.answeredAt ++ [(serial, fleet.now)] }

/-- Let an event happen to a request. -/
def happen (fleet : Fleet) (serial : Nat) (boot : Boot) (event : Event) : Fleet :=
  let noted := match event with
    | .reserve .. => fleet.noteAdmission serial boot
    | .launch .. => fleet.noteLaunch serial boot
    | .exit .. => fleet.noteExit serial
    | _ => fleet
  let moved := { noted with daemon := (fleet.daemon.step? event).getD fleet.daemon }
  (moved.noteHalts).noteAnswer serial

/-! ### The clock -/

/-- How many events one request can see at most. -/
def eventsOfRequest : Nat := 20

/-- Do what is due, for so many events. -/
def settleWithin : Nat → Fleet → Fleet
  | 0, fleet => fleet
  | events + 1, fleet =>
    match fleet.due? with
    | some (serial, boot, event) => settleWithin events (fleet.happen serial boot event)
    | none => fleet

/-- Do everything that is due at this instant. -/
def settle (fleet : Fleet) : Fleet :=
  settleWithin (eventsOfRequest * fleet.daemon.boots.length + 1) fleet

/-- The moments a request waits for. -/
def momentsOf (fleet : Fleet) (serial : Nat) (boot : Boot) : List (Option Nat) :=
  match fleet.guest? serial with
  | none => []
  | some guest =>
    (match boot.race with
      | .listening => [guest.reportsAt, guest.silentAt, some (fleet.deadline guest)]
      | .deaf => [some (fleet.deadline guest)]
      | _ => []) ++
    match boot.reaper with
      | .watching => [guest.endsAt]
      | .grace => [fleet.graceEnds guest]
      | _ => []

/-- The next moment at which something happens. -/
def nextMoment? (fleet : Fleet) : Option Nat :=
  earliest (fleet.daemon.boots.zipIdx.flatMap fun (boot, serial) => fleet.momentsOf serial boot)

/-- Let time pass until the goal is reached or the limit has come, for so many
moments. The mark says whether the goal was reached. -/
def passWithin (goal : Fleet → Bool) (limit : Option Nat) : Nat → Fleet → Fleet × Bool
  | 0, fleet => (fleet, goal fleet)
  | moments + 1, fleet =>
    if goal fleet then (fleet, true)
    else
      match earliest [fleet.nextMoment?, limit] with
      | none => (fleet, false)
      | some moment =>
        let later := settle { fleet with now := max fleet.now moment }
        if some moment = limit then (later, goal later)
        else passWithin goal limit moments later

/-- Let time pass until the goal is reached or the limit has come. -/
def pass (goal : Fleet → Bool) (limit : Option Nat) (fleet : Fleet) : Fleet × Bool :=
  passWithin goal limit (eventsOfRequest * fleet.daemon.boots.length + 2) fleet

/-- Let so many milliseconds pass. -/
def advance (fleet : Fleet) (duration : Nat) : Fleet :=
  (pass (fun _ => false) (some (fleet.now + duration)) fleet).1

/-- How long draining may take. -/
def drainLimit : Nat := 3600 * 1000

/-- Wait until no work is left. -/
def drain (fleet : Fleet) : Fleet × Bool :=
  pass (fun later => later.daemon.jobs == 0) (some (fleet.now + drainLimit)) fleet

/-! ### Requests -/

/-- A request to run a machine arrives; gives its serial number. -/
def start (fleet : Fleet) (draft : Vm) : Fleet × Nat :=
  (settle { fleet with daemon := fleet.daemon.submit draft }, fleet.daemon.boots.length)

/-- The answer of a request, with the time at which it was given. -/
def answer? (fleet : Fleet) (serial : Nat) : Option (Except FleetError Vm × Nat) := do
  let boot ← fleet.daemon.boot? serial
  let (_, time) ← fleet.answeredAt.find? (·.1 == serial)
  match boot.request with
  | .answered outcome => some (outcome, time)
  | _ => none

/-- Whether a request has ended, with an answer or without one. -/
def isOver (fleet : Fleet) (serial : Nat) : Bool :=
  (fleet.daemon.boot? serial).any (!·.request.isOpen)

/-- Wait until a request has ended. -/
def await (fleet : Fleet) (serial : Nat) : Fleet :=
  (pass (fun later => later.isOver serial) none fleet).1

/-- Change the daemon by one of its operations and do what follows from it. -/
def apply (fleet : Fleet) (daemon : Daemon) : Fleet :=
  settle (noteHalts { fleet with daemon })

/-- Ask the machines that the targets mean to end. -/
def stop (fleet : Fleet) (targets : List String) : Fleet × List String :=
  let (daemon, asked) := fleet.daemon.stop targets
  (fleet.apply daemon, asked)

/-- Let the daemon take nothing any more and ask every machine to end. -/
def shutDown (fleet : Fleet) : Fleet × List String :=
  let (daemon, asked) := fleet.daemon.shutDown
  (fleet.apply daemon, asked)

/-- Look an identity up without taking it. -/
def lookUpIdentity (fleet : Fleet) (requested : String) : Fleet × Except FleetError Identity :=
  let (daemon, search) := fleet.daemon.lookUpIdentity fleet.draws requested
  ({ fleet with
      daemon
      drawn := fleet.drawn + search.drawn
      found := fleet.found ++ search.outcome.toOption.toList }, search.outcome)

/-- The time from the request to end to the end of the daemon. -/
def closingDelay : Nat := 100

/-- Ask the daemon to end soon. -/
def close (fleet : Fleet) : Fleet :=
  { fleet with closesAt := some (fleet.closesAt.getD (fleet.now + closingDelay)) }

/-- Whether the daemon is to end now. -/
def isClosing (fleet : Fleet) : Bool :=
  fleet.reached fleet.closesAt

/-- Values ordered by when the identity of each was first found. -/
def byDiscovery {α : Type} (fleet : Fleet) (identity : α → String) (values : List α) : List α :=
  let rank := fun value => fleet.found.findIdx (·.uuid == identity value)
  values.mergeSort fun left right => rank left ≤ rank right

end Fleet

end VmFleet.Rehearsal
