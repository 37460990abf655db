/-
This file says what the daemon goes by in a request. A draft may name a hardware address,
a process, an address, an age and a state, but admission writes over all of them. Until
then nobody reads them, and after it nothing but the preparation of the boot reads the
hardware address. The essence of a request leaves out what is not read, and a step that
is taken with the essence leads to the essence of what the step leads to.
-/

import VmFleet.Supervision.Step

namespace VmFleet

/-- A record without what a request is not believed. -/
def Vm.unforged (vm : Vm) : Vm :=
  { vm with mac := "", pid := Vm.noPid, publicIp := "", createdAt := 0, state := .reserved }

namespace Boot

/-- What the daemon goes by in a request. The record counts as a whole only while the boot is
to be prepared. -/
def essence (boot : Boot) : Boot :=
  { boot with
    draft := boot.draft.unforged
    vm := match boot.request with
      | .reserved => boot.vm
      | _ => boot.vm.unforged }

variable {left right : Boot} (boot : Boot)

@[simp]
theorem unforged_vm_essence : boot.essence.vm.unforged = boot.vm.unforged := by
  unfold essence
  dsimp only
  split <;> rfl

/-- Two requests that agree on what is read have the same essence. -/
theorem essence_congr (draft : left.draft.unforged = right.draft.unforged)
    (vm : left.vm.unforged = right.vm.unforged)
    (reserved : left.request = .reserved → left.vm = right.vm) (pid : left.pid = right.pid)
    (request : left.request = right.request) (race : left.race = right.race)
    (reaper : left.reaper = right.reaper) (signal : left.signal = right.signal) :
    left.essence = right.essence := by
  unfold essence
  rw [draft, pid, race, reaper, signal]
  cases phase : right.request <;> rw [phase] at request <;> simp_all

/-- The race or the reaper goes on. -/
theorem essence_others (race : RacePhase) (reaper : ReaperPhase) (signal : BootSignal) :
    essence { boot.essence with race, reaper, signal } =
      essence { boot with race, reaper, signal } := by
  refine essence_congr rfl boot.unforged_vm_essence (fun reserved => ?_) rfl rfl rfl rfl rfl
  have phase : boot.request = .reserved := reserved
  simp [essence, phase]

@[simp]
theorem essence_essence : boot.essence.essence = boot.essence :=
  boot.essence_others boot.race boot.reaper boot.signal

end Boot

namespace Daemon

/-- What the daemon goes by. -/
def essence (daemon : Daemon) : Daemon :=
  { daemon with boots := daemon.boots.map (·.essence) }

variable (daemon : Daemon) (serial : Nat) (boot : Boot)

@[simp]
theorem essence_essence : daemon.essence.essence = daemon.essence := by
  unfold essence
  simp

theorem essence_put {left right : Daemon} {first second : Boot}
    (daemons : left.essence = right.essence) (boots : first.essence = second.essence) :
    (left.put serial first).essence = (right.put serial second).essence := by
  have split (daemon : Daemon) (boot : Boot) :
      (daemon.put serial boot).essence = daemon.essence.put serial boot.essence := by
    unfold essence put
    rw [List.map_set]
  rw [split, split, daemons, boots]

/-- Only the race, the reaper or the outcome of a request goes on. -/
theorem essence_others (race : RacePhase) (reaper : ReaperPhase) (signal : BootSignal) :
    (daemon.essence.put serial { boot.essence with race, reaper, signal }).essence =
      (daemon.put serial { boot with race, reaper, signal }).essence :=
  essence_put serial daemon.essence_essence (boot.essence_others race reaper signal)

end Daemon

end VmFleet
