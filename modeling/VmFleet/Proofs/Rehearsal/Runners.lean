/-
This file follows the runners of a rehearsal. A request has at most one runner, since a
runner is only started where there is none yet. A runner keeps its script and its start,
and once it was asked to end that stays so; so its end is never put off. And while no
request works alone but those that broke off, which is so whenever nothing is due, no
runner is started: then a passage only lets the runners that are there go on.
-/

import Mathlib.Data.List.Nodup
import VmFleet.Proofs.Rehearsal.Order
import VmFleet.Proofs.Supervision.Advance

namespace VmFleet

/-- A request that has handed its machine over does not take it back. -/
theorem Daemon.Advance.isAlone {daemon next : Daemon} {event : Event} {serial : Nat}
    {boot after : Boot} (advance : Advance daemon event next serial boot after)
    (handed : boot.request.isAlone = false) : after.request.isAlone = false := by
  cases advance with
  | admission draws time vm asked phase | refusal draws time error asked phase =>
    rw [phase] at handed
    cases handed
  | preparation phase pid before =>
    rw [before] at handed
    cases handed
  | withdrawal | handOver | answer => rfl
  | race | record | settlement | reaper => exact handed

/-- A request that neither works alone nor broke off was not about to do anything for its machine,
and no step changes that. -/
theorem Daemon.Owned.workless_of_rule {daemon next : Daemon} {event : Event} {serial : Nat}
    {boot after : Boot} (owned : daemon.Owned) (rule : Daemon.Rule daemon event next)
    (found : daemon.boots[serial]? = some boot) (present : next.boots[serial]? = some after)
    (workless : boot.request.isAlone = true → boot.request.isBroken = true)
    (alone : after.request.isAlone = true) : after.request.isBroken = true := by
  cases handed : boot.request.isAlone with
  | true =>
    obtain ⟨race, reaper⟩ := owned.phased serial boot found handed
    have broke : daemon.BrokeOff serial boot := ⟨found, workless handed, race, reaper⟩
    obtain rfl := Option.some.inj ((broke.rule rule).found.symm.trans present)
    exact broke.request
  | false =>
    rcases (Daemon.advances_of_rule rule).onward found present with rfl | advance
    · rw [handed] at alone
      cases alone
    · rw [advance.isAlone handed] at alone
      cases alone

namespace Rehearsal

/-! ### One runner -/

/-- Of some moments there is a first one, if one of them comes at all. -/
theorem exists_earliest {moments : List (Option Nat)} {moment : Nat}
    (comes : some moment ∈ moments) : ∃ first, earliest moments = some first ∧ first ≤ moment := by
  cases soonest : earliest moments with
  | none => exact absurd comes (earliest_eq_none_iff.mp soonest moment)
  | some first => exact ⟨first, rfl, (earliest_eq_some_iff.mp soonest).2 moment comes⟩

namespace Guest

variable {guest later : Guest}

/-- A runner goes on: it may be asked to end, and it may end. -/
structure GoesOn (guest later : Guest) : Prop where
  serial : later.serial = guest.serial
  script : later.script = guest.script
  startedAt : later.startedAt = guest.startedAt
  halted : ∀ moment, guest.haltedAt = some moment → later.haltedAt = some moment

theorem goesOn_self (guest : Guest) : guest.GoesOn guest := ⟨rfl, rfl, rfl, fun _ => id⟩

theorem GoesOn.trans {last : Guest} (first : guest.GoesOn later) (second : later.GoesOn last) :
    guest.GoesOn last :=
  ⟨second.serial.trans first.serial, second.script.trans first.script,
    second.startedAt.trans first.startedAt,
    fun moment halted => second.halted moment (first.halted moment halted)⟩

theorem goesOn_noteHalt (guest : Guest) (now : Nat) (cancelled : Bool) :
    guest.GoesOn (guest.noteHalt now cancelled) := by
  unfold noteHalt
  split
  · rename_i free
    refine ⟨rfl, rfl, rfl, fun moment halted => ?_⟩
    rw [halted] at free
    cases free
  · exact guest.goesOn_self

/-- The end of a runner is never put off. -/
theorem GoesOn.endsAt (onward : guest.GoesOn later) {ending : Nat}
    (ends : guest.endsAt = some ending) :
    ∃ sooner, later.endsAt = some sooner ∧ sooner ≤ ending := by
  refine exists_earliest ?_
  rw [onward.script, onward.startedAt]
  rcases endsAt_eq_some ends with ⟨delay, after, rfl⟩ | ⟨halted, delay, asked, heeds, rfl⟩
  · rw [after]
    exact .head _
  · rw [onward.halted halted asked, heeds]
    exact .tail _ (.head _)

end Guest

namespace Fleet

variable {fleet later : Fleet} {asked : Nat → Option Nat} {serial : Nat} {boot : Boot}
variable {event : Event}

/-! ### The runners after an event -/

theorem guests_noteHalts (fleet : Fleet) :
    fleet.noteHalts.guests = fleet.guests.map fun guest =>
      guest.noteHalt fleet.now (fleet.daemon.shared.registry.isCancelled guest.serial) := rfl

theorem guests_happen (fleet : Fleet) (serial : Nat) (boot : Boot) (event : Event) :
    (fleet.happen serial boot event).guests =
      (fleet.noted serial boot event).guests.map fun guest =>
        guest.noteHalt fleet.now
          (((fleet.daemon.step? event).getD fleet.daemon).shared.registry.isCancelled
            guest.serial) := by
  have told : ∀ fleet : Fleet, (fleet.noteAnswer serial).guests = fleet.guests := by
    intro fleet
    unfold noteAnswer
    dsimp only
    split <;> rfl
  rw [happen_eq, told, guests_noteHalts, now_noted]

/-- Every runner there is was there before and went on. -/
def OnlyGoOn (fleet later : Fleet) : Prop :=
  ∀ after ∈ later.guests, ∃ guest ∈ fleet.guests, guest.GoesOn after

theorem OnlyGoOn.trans {last : Fleet} (first : fleet.OnlyGoOn later) (second : later.OnlyGoOn last) :
    fleet.OnlyGoOn last := by
  intro after member
  obtain ⟨between, present, onward⟩ := second after member
  obtain ⟨guest, there, before⟩ := first between present
  exact ⟨guest, there, before.trans onward⟩

theorem onlyGoOn_of_map (change : Guest → Guest) (goes : ∀ guest : Guest, guest.GoesOn (change guest))
    (guests : later.guests = fleet.guests.map change) : fleet.OnlyGoOn later := by
  intro after member
  rw [guests] at member
  obtain ⟨guest, present, rfl⟩ := List.mem_map.mp member
  exact ⟨guest, present, goes guest⟩

theorem onlyGoOn_noteExit (fleet : Fleet) (serial : Nat) :
    fleet.OnlyGoOn (fleet.noteExit serial) := by
  refine onlyGoOn_of_map _ (fun guest => ?_) rfl
  split
  · exact ⟨rfl, rfl, rfl, fun _ => id⟩
  · exact guest.goesOn_self

/-- Only a request that works alone starts a runner. -/
theorem launching_of_due {place : Nat} {outcome : Except FleetError Spawned}
    (due : fleet.due? = some (serial, boot, .launch place outcome)) :
    ∃ plan, boot.request = .launching plan := by
  obtain ⟨found, happening⟩ := next?_of_due? due
  obtain ⟨next, after, stepped, -⟩ := happen_of_due? due
  obtain ⟨subject, -⟩ := furthers_of_next? found happening
  obtain rfl := Option.some.inj subject
  cases Daemon.rule_of_step? stepped with
  | launch _ there phase =>
    obtain rfl := Option.some.inj (found.symm.trans there)
    exact ⟨_, phase⟩

/-! ### No further runner -/

/-- No request works alone, unless it broke off. -/
def HandedOver (fleet : Fleet) : Prop :=
  ∀ (serial : Nat) (boot : Boot), fleet.daemon.boots[serial]? = some boot →
    boot.request.isAlone = true → boot.request.isBroken = true

/-- At rest no request works alone, unless it broke off. -/
theorem InOrder.handedOver (inOrder : fleet.InOrder asked) (rest : fleet.due? = none) :
    fleet.HandedOver := by
  intro serial boot found
  have handed : ∀ {phase}, boot.request = phase → (phase.isAlone = true → phase.isBroken = true) →
      boot.request.isAlone = true → boot.request.isBroken = true := fun same handed => same ▸ handed
  cases inOrder.resting rest found with
  | refused outcome time bare phase => exact handed phase nofun
  | unjudged bare phase => exact handed phase fun _ => rfl
  | abandoned guest vm manned phase => exact handed phase fun _ => rfl
  | booting guest vm pending => exact handed pending.request nofun
  | living guest time vm manned race settles phase => exact handed phase nofun
  | left guest time ending manned race settles phase => exact handed phase nofun

theorem HandedOver.happen (handed : fleet.HandedOver) (owned : fleet.daemon.Owned)
    (due : fleet.due? = some (serial, boot, event)) :
    (fleet.happen serial boot event).HandedOver ∧
      fleet.OnlyGoOn (fleet.happen serial boot event) := by
  obtain ⟨found, happening⟩ := next?_of_due? due
  obtain ⟨next, after, stepped, moved, boots, -⟩ := happen_of_due? due
  constructor
  · intro other theirs present
    rw [moved] at present
    have inside : other < fleet.daemon.boots.length := by
      have inside := (List.getElem?_eq_some_iff.mp present).1
      rwa [boots, List.length_set] at inside
    have there := List.getElem?_eq_getElem inside
    exact owned.workless_of_rule (Daemon.rule_of_step? stepped) there present
      (handed other _ there)
  · have noted : fleet.OnlyGoOn (fleet.noted serial boot event) := by
      have same : fleet.OnlyGoOn fleet :=
        fun guest member => ⟨guest, member, guest.goesOn_self⟩
      cases event with
      | launch place outcome =>
        obtain ⟨plan, phase⟩ := launching_of_due due
        have broken := handed serial boot found (by rw [phase]; rfl)
        rw [phase] at broken
        cases broken
      | exit => exact fleet.onlyGoOn_noteExit serial
      | _ => exact same
    refine noted.trans (onlyGoOn_of_map _ (fun guest => ?_) (fleet.guests_happen serial boot event))
    exact guest.goesOn_noteHalt _ _

/-- Where no request works alone, a passage starts no runner. -/
theorem HandedOver.passes (handed : fleet.HandedOver) (owned : fleet.daemon.Owned)
    (passed : Passes fleet later) : later.HandedOver ∧ fleet.OnlyGoOn later :=
  (Passes.keeps (fun other => other.daemon.Owned ∧ other.HandedOver ∧ fleet.OnlyGoOn other)
    (fun ⟨owned, handed, onward⟩ due => ⟨owned_happen owned due, (handed.happen owned due).1,
      onward.trans (handed.happen owned due).2⟩)
    (fun all _ _ _ => all)
    ⟨owned, handed, fun guest member => ⟨guest, member, guest.goesOn_self⟩⟩ passed).2

/-- A request that has handed its machine over does not take it back. -/
theorem Passes.handed (passed : Passes fleet later)
    (found : fleet.daemon.boots[serial]? = some boot) (handed : boot.request.isAlone = false) :
    ∃ after, later.daemon.boots[serial]? = some after ∧ after.request.isAlone = false := by
  refine Passes.keeps (fun other => ∃ after, other.daemon.boots[serial]? = some after ∧
    after.request.isAlone = false) ?_ (fun still _ _ _ => still) ⟨boot, found, handed⟩ passed
  rintro fleet place going event ⟨boot, found, handed⟩ due
  obtain ⟨next, after, stepped, moved, boots, -⟩ := happen_of_due? due
  have inside : serial < next.boots.length := by
    rw [boots, List.length_set]
    exact (List.getElem?_eq_some_iff.mp found).1
  have present := List.getElem?_eq_getElem inside
  rw [moved]
  refine ⟨_, present, ?_⟩
  rcases (Daemon.advances_of_rule (Daemon.rule_of_step? stepped)).onward found present with
    same | advance
  · exact same ▸ handed
  · exact advance.isAlone handed

/-! ### One runner for each request -/

/-- No request has two runners. -/
def Singular (fleet : Fleet) : Prop :=
  (fleet.guests.map (·.serial)).Nodup

/-- A change that keeps the serial numbers keeps the runners apart. -/
theorem Singular.map (single : fleet.Singular) (change : Guest → Guest)
    (keeps : ∀ guest, (change guest).serial = guest.serial)
    (guests : later.guests = fleet.guests.map change) : later.Singular := by
  unfold Singular
  rw [guests, List.map_map]
  refine Eq.mp (congrArg List.Nodup (List.map_congr_left fun guest _ => ?_)) single
  exact (keeps guest).symm

theorem Singular.noteLaunch (single : fleet.Singular) (nobody : fleet.guest? serial = none)
    (boot : Boot) : (fleet.noteLaunch serial boot).Singular := by
  unfold Singular Fleet.noteLaunch
  dsimp only
  split
  · split <;> exact single
  · rw [List.map_append, List.nodup_append]
    refine ⟨single, List.nodup_singleton _, ?_⟩
    rintro other present _ new rfl
    obtain ⟨guest, member, rfl⟩ := List.mem_map.mp present
    obtain rfl := List.mem_singleton.mp new
    have absent := List.find?_eq_none.mp nobody guest member
    exact absent (beq_self_eq_true _)

/-- A request that is about to start a runner has none yet. -/
theorem InOrder.guest?_of_launching (inOrder : fleet.InOrder asked)
    (found : fleet.daemon.boots[serial]? = some boot) {plan : BootPlan}
    (phase : boot.request = .launching plan) : fleet.guest? serial = none := by
  have other : ∀ {going}, boot.request = going → going ≠ .launching plan → False :=
    fun same different => different (same.symm.trans phase)
  cases inOrder.standing serial boot found with
  | arrived bare | preparing vm bare | refused outcome time bare | unjudged bare =>
    exact bare.guest
  | abandoned guest vm manned phase | started guest vm manned phase =>
    exact (other phase nofun).elim
  | quiet guest pending | heard guest pending | recorded guest vm pending | struck guest pending =>
    exact (other pending.request nofun).elim
  | lapsed guest manned race signal late attended replied
  | unnoticed guest manned race reaper signal settles attended replied
  | decided guest time manned race settles attended replied =>
    cases replied with
    | soon waits => exact (other waits nofun).elim
    | done answered => exact (other answered nofun).elim

theorem Singular.happen (single : fleet.Singular) (inOrder : fleet.InOrder asked)
    (due : fleet.due? = some (serial, boot, event)) :
    (fleet.happen serial boot event).Singular := by
  have noted : (fleet.noted serial boot event).Singular := by
    cases event with
    | launch place outcome =>
      obtain ⟨plan, phase⟩ := launching_of_due due
      obtain ⟨found, -⟩ := next?_of_due? due
      exact single.noteLaunch (inOrder.guest?_of_launching found phase) boot
    | exit =>
      refine single.map _ (fun guest => ?_) rfl
      split <;> rfl
    | reserve | _ => exact single
  exact noted.map _ (fun guest => (guest.goesOn_noteHalt _ _).serial)
    (fleet.guests_happen serial boot event)

theorem Singular.passes (single : fleet.Singular) (inOrder : fleet.InOrder asked)
    (passed : Passes fleet later) : later.Singular :=
  (Passes.keeps (fun fleet => fleet.InOrder asked ∧ fleet.Singular)
    (fun both due => ⟨both.1.happen due, both.2.happen both.1 due⟩)
    (fun both rest onward free => ⟨both.1.wait rest onward free, both.2⟩)
    ⟨inOrder, single⟩ passed).2

theorem Singular.onset {action : Action} (single : fleet.Singular)
    (onset : Onset fleet action later) : later.Singular := by
  cases onset with
  | arrival draft nobody => exact single
  | halt identities daemon halts =>
    exact single.map _ (fun guest => (guest.goesOn_noteHalt _ _).serial)
      (guests_noteHalts { fleet with daemon })
  | aside _ nobody alike now scripts guests answeredAt =>
    unfold Singular
    rw [guests]
    exact single

theorem Singular.play (single : fleet.Singular) (inOrder : fleet.InOrder asked)
    (rest : fleet.due? = none) (history : List Action) : (fleet.play history).Singular := by
  induction history generalizing fleet asked with
  | nil => exact single
  | cons action history inductionHypothesis =>
    obtain ⟨onset, begun, passed, still⟩ := unfolds_act inOrder.owned rest action
    have begins := inOrder.onset rest begun
    exact inductionHypothesis ((single.onset begun).passes begins passed) (begins.passes passed)
      still

end Fleet

end Rehearsal

end VmFleet
