/-
This file puts the steps of the daemon together as one transition function. An
event names what happens and to which request; it is refused where it cannot
happen. A run is a list of events of which none is refused, so everything the
daemon can ever be is what such a list leads to.
-/

import VmFleet.Supervision.Daemon

namespace VmFleet

/-- What can happen to a daemon. The number is the serial number of a request. -/
inductive Event
  | submit (draft : Vm)
  | reserve (serial : Nat) (draws : Nat → Uuid) (time : UInt64)
  | prepare (serial : Nat)
  | rollBack (serial : Nat)
  | announce (serial : Nat)
  | launch (serial : Nat) (outcome : Except FleetError Spawned)
  /-- A started process is handed over, at a time in seconds. -/
  | handOver (serial : Nat) (now : Int)
  | answer (serial : Nat)
  /-- The runner reports an address. -/
  | hear (serial : Nat) (address : String)
  /-- The runner stops talking. -/
  | fallSilent (serial : Nat)
  /-- The deadline of a boot passes. -/
  | strike (serial : Nat)
  /-- The race sees that the outcome is settled. -/
  | notice (serial : Nat)
  | recordAddress (serial : Nat)
  | settleAddress (serial : Nat)
  | settleDeadline (serial : Nat)
  | markFailed (serial : Nat)
  /-- The process ends. -/
  | exit (serial : Nat)
  | deregister (serial : Nat)
  | settleExit (serial : Nat)
  | clearConsole (serial : Nat)
  /-- The time for trailing output is over. -/
  | finish (serial : Nat)
  | stop (targets : List String)
  | shutDown
  | listImages
  | takeImage (channel version : String)
  | deleteImage (channel : String) (version : Version)
  /-- Somebody else changes the files. -/
  | disturb (tree : Tree)

namespace Daemon

/-- What one request does next, when it is in the right phase for it. -/
def onBoot (daemon : Daemon) (serial : Nat) (next : Boot → Option Daemon) : Option Daemon :=
  (daemon.boot? serial).bind next

/-- The daemon after an event, or nothing where the event cannot happen. -/
def step? (daemon : Daemon) : Event → Option Daemon
  | .submit draft => some (daemon.submit draft)
  | .reserve serial draws time => daemon.onBoot serial fun boot =>
    match boot.request with
    | .arrived => some (daemon.reserve serial boot draws time)
    | _ => none
  | .prepare serial => daemon.onBoot serial fun boot =>
    match boot.request with
    | .reserved => some (daemon.prepare serial boot)
    | _ => none
  | .rollBack serial => daemon.onBoot serial fun boot =>
    match boot.request with
    | .undoing error => some (daemon.rollBack serial boot error)
    | _ => none
  | .announce serial => daemon.onBoot serial fun boot =>
    match boot.request with
    | .planned plan => some (daemon.announce serial boot plan)
    | _ => none
  | .launch serial outcome => daemon.onBoot serial fun boot =>
    match boot.request with
    | .launching _ => some (daemon.launch serial boot outcome)
    | _ => none
  | .handOver serial now => daemon.onBoot serial fun boot =>
    match boot.request with
    | .started => some (daemon.handOver serial boot now)
    | _ => none
  | .answer serial => daemon.onBoot serial fun boot =>
    match boot.request with
    | .waiting => if boot.signal.isPending then none else some (daemon.answer serial boot)
    | _ => none
  | .hear serial address => daemon.onBoot serial fun boot =>
    match boot.race with
    | .listening => some (daemon.put serial { boot with race := .heard address })
    | _ => none
  | .fallSilent serial => daemon.onBoot serial fun boot =>
    match boot.race with
    | .listening => some (daemon.put serial { boot with race := .deaf })
    | _ => none
  | .strike serial => daemon.onBoot serial fun boot =>
    match boot.race with
    | .listening => some (daemon.put serial { boot with race := .struck })
    | .deaf => some (daemon.put serial { boot with race := .struck })
    | _ => none
  | .notice serial => daemon.onBoot serial fun boot =>
    match boot.race with
    | .listening =>
      if boot.signal.isPending then none
      else some (daemon.put serial { boot with race := .finished })
    | .deaf =>
      if boot.signal.isPending then none
      else some (daemon.put serial { boot with race := .finished })
    | _ => none
  | .recordAddress serial => daemon.onBoot serial fun boot =>
    match boot.race with
    | .heard address => some (daemon.recordAddress serial boot address)
    | _ => none
  | .settleAddress serial => daemon.onBoot serial fun boot =>
    match boot.race with
    | .recorded ready => some (daemon.settleAddress serial boot ready)
    | _ => none
  | .settleDeadline serial => daemon.onBoot serial fun boot =>
    match boot.race with
    | .struck => some (daemon.settleDeadline serial boot)
    | _ => none
  | .markFailed serial => daemon.onBoot serial fun boot =>
    match boot.race with
    | .lapsed => some (daemon.markFailed serial boot)
    | _ => none
  | .exit serial => daemon.onBoot serial fun boot =>
    match boot.reaper with
    | .watching => some (daemon.put serial { boot with reaper := .exited })
    | _ => none
  | .deregister serial => daemon.onBoot serial fun boot =>
    match boot.reaper with
    | .exited => some (daemon.deregister serial boot)
    | _ => none
  | .settleExit serial => daemon.onBoot serial fun boot =>
    match boot.reaper with
    | .deregistered => some (daemon.settleExit serial boot)
    | _ => none
  | .clearConsole serial => daemon.onBoot serial fun boot =>
    match boot.reaper with
    | .settled => some (daemon.clearConsole serial boot)
    | _ => none
  | .finish serial => daemon.onBoot serial fun boot =>
    match boot.reaper with
    | .grace => some (daemon.put serial { boot with reaper := .finished })
    | _ => none
  | .stop targets => some (daemon.stop targets).1
  | .shutDown => some daemon.shutDown.1
  | .listImages => some daemon.listImages.1
  | .takeImage channel version => some (daemon.takeImage channel version).1
  | .deleteImage channel version => some (daemon.deleteImage channel version).1
  | .disturb tree => some { daemon with tree }

/-- The daemon after a list of events, or nothing where one cannot happen. -/
def run? (daemon : Daemon) (events : List Event) : Option Daemon :=
  events.foldlM step? daemon

/-- What the steps of a daemon can lead to. -/
inductive Reachable (start : Daemon) : Daemon → Prop
  | start : Reachable start start
  | step {daemon next : Daemon} (event : Event) : Reachable start daemon →
    daemon.step? event = some next → Reachable start next

end Daemon

end VmFleet
