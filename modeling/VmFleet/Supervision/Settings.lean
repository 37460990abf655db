/-
This file holds the limits under which machines are admitted. A request for
memory is moved into the allowed range and a request for no processor becomes one
for one processor; only the sum over all machines can refuse a request.
-/

import VmFleet.Files.Path
import VmFleet.Vm.Record

namespace VmFleet

/-- The limits of a daemon, with times in whole seconds. -/
structure Settings where
  runRoot : Path
  bootTimeout : UInt64
  reapGrace : UInt64
  minMemoryMb : UInt64
  maxMemoryMb : UInt64
  ceilingMb : UInt64
deriving DecidableEq, Repr

/-- A value moved into a range: up to the lower end, else down to the upper. -/
def clampMemory (requested lowest highest : UInt64) : UInt64 :=
  if requested < lowest then lowest
  else if requested > highest then highest
  else requested

/-- A draft with memory in range and at least one processor. -/
def Settings.fit (settings : Settings) (draft : Vm) : Vm :=
  { draft with
    memoryMb := clampMemory draft.memoryMb settings.minMemoryMb settings.maxMemoryMb
    cpus := if draft.cpus = 0 then 1 else draft.cpus }

end VmFleet
