/-
This file holds the outcome of a boot, which is settled once. The request that
waits for it, the race for the address and the reaper all share it: the first
settlement wins and every later one changes nothing.
-/

import VmFleet.Vm.Record

namespace VmFleet

/-- How a boot stands. -/
inductive BootSignal
  | pending
  | ready (vm : Vm)
  | timedOut
  | terminatedEarly
deriving DecidableEq, Repr

namespace BootSignal

/-- Whether the outcome is still open. -/
def isPending : BootSignal → Bool
  | pending => true
  | _ => false

/-- Settle the outcome; the mark says whether this settlement was the first. -/
def settle (signal status : BootSignal) : BootSignal × Bool :=
  if signal.isPending then (status, true) else (signal, false)

/-- The outcome, once there is one. -/
def outcome? (signal : BootSignal) : Option BootSignal :=
  if signal.isPending then none else some signal

end BootSignal

end VmFleet
