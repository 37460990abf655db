/-
This file holds the states of a machine and the moves between them. A machine
walks from its reservation to its removal; every state but the last may end in
a halt, and no state is entered twice. The last state is only ever shown of a
machine that has left the registry.
-/

namespace VmFleet

/-- Where a machine is in its life. -/
inductive VmState
  | reserved
  | spawning
  | awaitingAddress
  | running
  | halting
  | reaped
  | failed
deriving DecidableEq, Repr

namespace VmState

/-- Every state, in the order of declaration. -/
def all : List VmState :=
  [.reserved, .spawning, .awaitingAddress, .running, .halting, .reaped, .failed]

/-- The name that people and requests use. -/
def name : VmState → String
  | .reserved => "reserved"
  | .spawning => "spawning"
  | .awaitingAddress => "awaiting-address"
  | .running => "running"
  | .halting => "halting"
  | .reaped => "reaped"
  | .failed => "failed"

/-- The name in printed records. -/
def recordName : VmState → String
  | .reserved => "Reserved"
  | .spawning => "Spawning"
  | .awaitingAddress => "AwaitingAddress"
  | .running => "Running"
  | .halting => "Halting"
  | .reaped => "Reaped"
  | .failed => "Failed"

/-- The state of a name. -/
def ofName? (name : String) : Option VmState :=
  all.find? (·.name == name)

/-- Whether a machine may move from the first state to the second. A halt may be
asked for until the process has been reaped, and reaping ends every life whose
process was started. -/
def canMove : VmState → VmState → Bool
  | .reserved, .spawning => true
  | .spawning, .awaitingAddress => true
  | .spawning, .failed => true
  | .awaitingAddress, .running => true
  | .awaitingAddress, .failed => true
  | .reserved, .halting => true
  | .spawning, .halting => true
  | .awaitingAddress, .halting => true
  | .running, .halting => true
  | .failed, .halting => true
  | .spawning, .reaped => true
  | .awaitingAddress, .reaped => true
  | .running, .reaped => true
  | .halting, .reaped => true
  | .failed, .reaped => true
  | _, _ => false

/-- The state that nothing follows. -/
def isTerminal (state : VmState) : Bool :=
  state == .reaped

end VmState

end VmFleet
