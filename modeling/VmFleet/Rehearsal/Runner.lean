/-
This file holds runners that follow a script. A script says whether the runner
starts at all and after how many milliseconds it reports an address, falls silent
and ends; a running one also knows when it was asked to end. Each moment is then
a number or nothing, where nothing means that it never comes.
-/

import VmFleet.Error

namespace VmFleet.Rehearsal

/-- What a runner does. Times count from its start. -/
structure Script where
  /-- Why the runner cannot be started, if it cannot. -/
  refusal : Option FleetError
  /-- The console link is made at the start. -/
  console : Bool
  /-- The address that is reported; else one that tells runners apart. -/
  address : Option String
  reportsAfter : Option Nat
  silentAfter : Option Nat
  endsAfter : Option Nat
  /-- From the request to end to the end, if the runner heeds it. -/
  haltDelay : Option Nat
deriving DecidableEq, Repr

/-- A runner that reports nothing and ends when it is asked to. -/
def Script.quiet : Script :=
  ⟨none, false, none, none, none, none, some 0⟩

/-- A runner that was started for a request. -/
structure Guest where
  serial : Nat
  script : Script
  pid : Nat
  startedAt : Nat
  haltedAt : Option Nat
  endedAt : Option Nat
deriving DecidableEq, Repr

/-- The first of some moments. -/
def earliest (moments : List (Option Nat)) : Option Nat :=
  (moments.filterMap id).min?

namespace Guest

/-- The address it reports. -/
def address (guest : Guest) : String :=
  guest.script.address.getD ("10.0.0." ++ Text.ofNat guest.pid)

/-- When it falls silent. -/
def silentAt (guest : Guest) : Option Nat :=
  guest.script.silentAfter.map (guest.startedAt + ·)

/-- When it reports its address; a runner that is silent by then never does. -/
def reportsAt (guest : Guest) : Option Nat :=
  match guest.script.reportsAfter, guest.script.silentAfter with
  | some report, some silence =>
    if silence ≤ report then none else some (guest.startedAt + report)
  | report, none => report.map (guest.startedAt + ·)
  | none, _ => none

/-- When it ends: on its own account, or some time after it was asked to. -/
def endsAt (guest : Guest) : Option Nat :=
  earliest
    [guest.script.endsAfter.map (guest.startedAt + ·),
      guest.haltedAt.bind fun halted => guest.script.haltDelay.map (halted + ·)]

end Guest

end VmFleet.Rehearsal
