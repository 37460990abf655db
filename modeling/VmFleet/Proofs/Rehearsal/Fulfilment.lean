/-
This file says what a request for a machine gets. What its draft says of a hardware
address, a process, an address, an age or a state counts for nothing: a history in which
it says something else is answered alike and comes to the same. Everything else in the
draft is kept, in the record that the request is answered with: the race of a request
only ever keeps a copy of its own entry, and this was made of the draft at admission.
-/

import VmFleet.Proofs.Rehearsal.Forgery
import VmFleet.Proofs.Rehearsal.Success
import VmFleet.Proofs.Supervision.Ceiling
import VmFleet.Proofs.Supervision.Enrolment
import VmFleet.Proofs.Supervision.Reuse

namespace VmFleet

namespace Rehearsal

namespace Fleet

variable {fleet later : Fleet} {asked : Nat → Option Nat} {serial : Nat} {boot : Boot}
variable {event : Event} {setup : Setup}

/-! ### The drafts of the requests -/

/-- The drafts of the requests, in order of arrival. -/
def drafts (fleet : Fleet) : List Vm :=
  fleet.daemon.boots.map (·.draft)

/-- Every request only has records of its own, and its own record was made of its draft. -/
structure Faithful (setup : Setup) (fleet : Fleet) : Prop where
  setup : fleet.daemon.setup = setup
  keepsOwn : ∀ (serial : Nat) (boot : Boot), fleet.daemon.boots[serial]? = some boot → boot.KeepsOwn
  enrolled : fleet.daemon.Enrolled

theorem Faithful.aside (faithful : fleet.Faithful setup)
    (same : later.daemon.setup = fleet.daemon.setup)
    (boots : later.daemon.boots = fleet.daemon.boots) : later.Faithful setup := by
  refine ⟨same.trans faithful.setup, boots ▸ faithful.keepsOwn, ?_⟩
  unfold Daemon.Enrolled
  rw [same, boots]
  exact faithful.enrolled

/-- A step leaves the requests faithful, if races only record while their entries are there. -/
theorem Faithful.step (faithful : fleet.Faithful setup) (owned : fleet.daemon.Owned)
    (timely : ∀ serial, event = .recordAddress serial → fleet.daemon.Registers serial)
    (stepped : fleet.daemon.step? event = some later.daemon) : later.Faithful setup := by
  have rule := Daemon.rule_of_step? stepped
  refine ⟨(Daemon.setup_of_rule rule).trans faithful.setup, fun serial after present => ?_,
    faithful.enrolled.step rule⟩
  rcases (Daemon.advances_of_rule rule).origin present with
    ⟨draft, rfl⟩ | ⟨boot, found, rfl | advance⟩
  · exact Boot.keepsOwn_ofDraft draft
  · exact faithful.keepsOwn serial after found
  · exact Daemon.keepsOwn_of_advance owned stepped found advance (timely serial)
      (faithful.keepsOwn serial boot found)

/-- A race that is due to record an address belongs to a request whose entry is there. -/
theorem InOrder.registers_of_record (inOrder : fleet.InOrder asked) {other : Nat}
    (due : fleet.due? = some (serial, boot, .recordAddress other)) :
    fleet.daemon.Registers other := by
  obtain ⟨found, happening⟩ := next?_of_due? due
  obtain ⟨subject, -⟩ := furthers_of_next? found happening
  obtain ⟨next, after, stepped, -⟩ := happen_of_due? due
  obtain rfl : other = serial := Option.some.inj subject
  cases Daemon.rule_of_step? stepped with
  | recordAddress present phase =>
    obtain rfl := Option.some.inj (found.symm.trans present)
    have writes : boot.race.writes = true := by rw [phase]; rfl
    have holds := (inOrder.standing other boot found).holds writes
    exact (inOrder.owned.registers_iff other).mpr ⟨boot, found, holds⟩

theorem Faithful.happen (faithful : fleet.Faithful setup) (inOrder : fleet.InOrder asked)
    (due : fleet.due? = some (serial, boot, event)) :
    (fleet.happen serial boot event).Faithful setup := by
  obtain ⟨next, after, stepped, moved, -⟩ := happen_of_due? due
  refine faithful.step inOrder.owned ?_ (moved ▸ stepped)
  rintro other rfl
  exact inOrder.registers_of_record due

/-- A passage leaves every request faithful. -/
theorem Faithful.passes (faithful : fleet.Faithful setup) (inOrder : fleet.InOrder asked)
    (passed : Passes fleet later) : later.Faithful setup :=
  (Passes.keeps (fun fleet => fleet.InOrder asked ∧ fleet.Faithful setup)
    (fun both due => ⟨both.1.happen due, both.2.happen both.1 due⟩)
    (fun both rest onward free => ⟨both.1.wait rest onward free, both.2.aside rfl rfl⟩)
    ⟨inOrder, faithful⟩ passed).2

/-- However an action begins, every request stays faithful. -/
theorem Faithful.onset (faithful : fleet.Faithful setup) (owned : fleet.daemon.Owned) {action : Action}
    (onset : Onset fleet action later) : later.Faithful setup := by
  cases onset with
  | arrival draft nobody =>
    exact faithful.step owned (by nofun) (Daemon.step?_of_rule (.submit draft))
  | halt identities daemon halts => exact faithful.aside halts.setup halts.boots
  | aside _ nobody alike => exact faithful.aside alike.setup alike.boots

/-- A history leaves every request faithful. -/
theorem Faithful.play (faithful : fleet.Faithful setup) (inOrder : fleet.InOrder asked)
    (rest : fleet.due? = none) (history : List Action) : (fleet.play history).Faithful setup := by
  induction history generalizing fleet asked with
  | nil => exact faithful
  | cons action history inductionHypothesis =>
    obtain ⟨begun, begins, passed, still⟩ := unfolds_act inOrder.owned rest action
    have begin' := inOrder.onset rest begins
    exact inductionHypothesis ((faithful.onset inOrder.owned begins).passes begin' passed)
      (begin'.passes passed) still

end Fleet

end Rehearsal

end VmFleet
