/-
This file bounds the patience of a client. A call ends with the answer or, when
the answer takes longer than the client waits, with a complaint; an answer that
comes together with the end of the patience still counts.
-/

import VmFleet.Client.Question
import VmFleet.Error

namespace VmFleet.Client

/-- How a call ends, and after how many milliseconds. -/
def call {α : Type} (address : String) (operation : Operation) (patience : Nat) :
    Option (Reply α) → Except FleetError α × Nat
  | some reply =>
    if reply.after ≤ patience then (reply.answer.mapError FleetError.daemon, reply.after)
    else (.error (.unresponsive address operation.name), patience)
  | none => (.error (.unresponsive address operation.name), patience)

/-- What a probe learns about a daemon. Whatever goes wrong, the daemon cannot be
reached. -/
def probe (address : String) (patience : Nat) (reply : Option (Reply DaemonInfo)) :
    Except FleetError DaemonInfo :=
  (call address .echo patience reply).1.mapError fun _ => .unreachable address

end VmFleet.Client
