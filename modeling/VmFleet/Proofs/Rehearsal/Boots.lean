/-
This file proves when and how every boot ends. The address, the deadline and the end of
a runner race, and a halt that comes from the deadline moves the end of the runner in
turn; the verdict on a boot is read off these moments alone. Where a request stands at
rest fixes the outcome that was settled, and an outcome is settled as the verdict says.
The answer is then given at that time, is kept for ever, and comes if it is waited for.
-/

import VmFleet.Proofs.Rehearsal.Records
import VmFleet.Proofs.Rehearsal.Runners

namespace VmFleet.Rehearsal

/-! ### The verdict on a boot -/

/-- How a boot ends: with an address, with the end of the runner, or at the deadline. -/
inductive Ending
  | ready
  | early
  | late
deriving DecidableEq, Repr

/-- How a boot ends and when. -/
structure Verdict where
  ending : Ending
  time : Nat
deriving DecidableEq, Repr

namespace Guest

/-- When the address of a runner is heard, which has to be before the runner ends. -/
def heardAt (guest : Guest) : Option Nat :=
  guest.reportsAt.filter fun report => guest.endsAt.all (report < ·)

/-- What the moments of a runner make of its boot. -/
def verdict (guest : Guest) (deadline : Nat) : Verdict :=
  match guest.heardAt.filter (· < deadline), guest.endsAt.filter (· < deadline) with
  | some report, _ => ⟨.ready, report⟩
  | none, some ending => ⟨.early, ending⟩
  | none, none => ⟨.late, deadline⟩

/-- The address does not come at the same time as the deadline or the end of the runner. -/
def IsUntied (guest : Guest) (deadline : Nat) : Prop :=
  ∀ report, guest.reportsAt = some report → report ≠ deadline ∧ guest.endsAt ≠ some report

end Guest

/-- The answer that a boot is given when it ends in a certain way. -/
inductive Ending.Answers (guest : Guest) (name : String) (seconds : Nat) :
    Ending → Except FleetError Vm → Prop
  | ready (vm : Vm) (address : vm.publicIp = guest.address) (pid : vm.pid = guest.pid) :
    Answers guest name seconds .ready (.ok vm)
  | early : Answers guest name seconds .early (.error (.terminatedEarly name))
  | late : Answers guest name seconds .late (.error (.bootTimeout name seconds))

theorem earliest_none (moment : Option Nat) : earliest [moment, none] = moment := by
  cases moment <;> rfl

namespace Guest

variable {guest : Guest} {deadline time : Nat}

theorem heardAt_eq_some_iff :
    guest.heardAt = some time ↔
      guest.reportsAt = some time ∧ ∀ ending, guest.endsAt = some ending → time < ending := by
  unfold heardAt
  rw [Option.filter_eq_some_iff, Option.all_eq_true]
  simp only [decide_eq_true_eq]

theorem filter_heardAt_eq_none_iff :
    guest.heardAt.filter (· < deadline) = none ↔
      ∀ report, guest.heardAt = some report → deadline ≤ report := by
  rw [Option.filter_eq_none_iff]
  simp

theorem verdict_ready (heard : guest.heardAt = some time) (intime : time < deadline) :
    guest.verdict deadline = ⟨.ready, time⟩ := by
  have first : guest.heardAt.filter (· < deadline) = some time :=
    Option.filter_eq_some_iff.mpr ⟨heard, decide_eq_true intime⟩
  unfold verdict
  rw [first]

theorem verdict_early (unheard : ∀ report, guest.heardAt = some report → deadline ≤ report)
    (ends : guest.endsAt = some time) (intime : time < deadline) :
    guest.verdict deadline = ⟨.early, time⟩ := by
  have last : guest.endsAt.filter (· < deadline) = some time :=
    Option.filter_eq_some_iff.mpr ⟨ends, decide_eq_true intime⟩
  unfold verdict
  rw [filter_heardAt_eq_none_iff.mpr unheard, last]

theorem verdict_late (unheard : ∀ report, guest.heardAt = some report → deadline ≤ report)
    (alive : ∀ ending, guest.endsAt = some ending → deadline ≤ ending) :
    guest.verdict deadline = ⟨.late, deadline⟩ := by
  have never : guest.endsAt.filter (· < deadline) = none := by
    rw [Option.filter_eq_none_iff]
    simpa using alive
  unfold verdict
  rw [filter_heardAt_eq_none_iff.mpr unheard, never]

/-- An outcome is settled as the verdict says. The deadline asks for a halt in the case of a late
boot alone, and a record shows an address in the case of a boot that is ready alone. -/
theorem Settles.verdict {signal : BootSignal} (settles : guest.Settles deadline signal time)
    (untied : guest.IsUntied deadline) (asked : Option Nat) (name : String) (seconds : UInt64) :
    ∃ ending, guest.verdict deadline = ⟨ending, time⟩ ∧
      ending.Answers guest name seconds.toNat (Boot.answerOf name seconds signal) ∧
      haltCause asked deadline signal =
        earliest [asked, if ending = .late then some deadline else none] ∧
      ∀ vm, guest.Shows vm signal →
        vm.publicIp = if ending = .ready then guest.address else "" := by
  cases signal with
  | pending => exact settles.elim
  | ready vm =>
    obtain ⟨⟨address, pid⟩, reports, intime, before⟩ := settles
    obtain ⟨apart, other⟩ := untied time reports
    refine ⟨.ready, verdict_ready (heardAt_eq_some_iff.mpr ⟨reports, fun ending ends => ?_⟩) ?_,
      .ready vm address pid, ?_, fun vm shows => shows.2.1⟩
    · refine Nat.lt_of_le_of_ne (before ending ends) fun same => other ?_
      rw [ends, same]
    · exact Nat.lt_of_le_of_ne intime apart
    · exact (earliest_none asked).symm
  | timedOut =>
    obtain ⟨rfl, silent, alive⟩ := settles
    refine ⟨.late, verdict_late (fun report heard => ?_) alive, .late, rfl,
      fun vm shows => shows.2.1⟩
    exact Nat.le_of_lt (silent report (heardAt_eq_some_iff.mp heard).1)
  | terminatedEarly =>
    obtain ⟨ends, intime, silent⟩ := settles
    refine ⟨.early, verdict_early (fun report heard => ?_) ends intime, .early, ?_,
      fun vm shows => shows.elim⟩
    · obtain ⟨reports, before⟩ := heardAt_eq_some_iff.mp heard
      exact absurd (before time ends) (Nat.lt_asymm (silent report reports))
    · exact (earliest_none asked).symm

end Guest

/-- A request at rest waits for its boot, or it was answered once, or it broke off. -/
theorem Resting.told {asked : Option Nat} {outlook : Outlook} (resting : Resting asked outlook) :
    (∃ guest, outlook.guest = some guest ∧ outlook.boot.race.IsWaiting ∧
      outlook.boot.request = .waiting) ∨
      (∃ outcome time, outlook.boot.request = .answered outcome ∧ outlook.answers = [time]) ∨
      outlook.boot.request.isBroken = true := by
  cases resting with
  | refused outcome time bare phase gone told nobody =>
    exact .inr (.inl ⟨outcome, time, phase, told⟩)
  | unjudged bare phase => exact .inr (.inr (by rw [phase]; rfl))
  | abandoned guest vm manned phase => exact .inr (.inr (by rw [phase]; rfl))
  | booting guest vm pending race watching entered shows alive report deadline ahead =>
    exact .inl ⟨guest, pending.manned.running, race, pending.request⟩
  | living guest time vm manned race settles phase told halted past watching entered shows alive
      ahead => exact .inr (.inl ⟨_, time, phase, told⟩)
  | left guest time ending manned race settles phase told halted past reaper gone ended ends
      elapsed =>
    exact .inr (.inl ⟨_, time, phase, told⟩)

/-- A request at rest that works alone broke off, at its sum or at the deadline of its runner. -/
theorem Resting.untold {asked : Option Nat} {outlook : Outlook} (resting : Resting asked outlook)
    (alone : outlook.boot.request.isAlone = true) :
    (outlook.boot.request = .unjudged ∧ outlook.guest = none) ∨
      ∃ guest, outlook.guest = some guest ∧ clockEnd ≤ outlook.deadline guest := by
  have other : ∀ {phase}, outlook.boot.request = phase → phase.isAlone = true :=
    fun same => same ▸ alone
  cases resting with
  | unjudged bare phase => exact .inl ⟨phase, bare.guest⟩
  | abandoned guest vm manned phase race reaper signal untold =>
    exact .inr ⟨guest, manned.running, untold⟩
  | refused outcome time bare phase => cases other phase
  | booting guest vm pending => cases other pending.request
  | living guest time vm manned race settles phase => cases other phase
  | left guest time ending manned race settles phase => cases other phase

/-- A request at rest whose deadline is told has handed its machine over. -/
theorem Resting.handed {asked : Option Nat} {outlook : Outlook} (resting : Resting asked outlook)
    {guest : Guest} (running : outlook.guest = some guest)
    (told : outlook.deadline guest < clockEnd) : outlook.boot.request.isAlone = false := by
  refine Bool.eq_false_iff.mpr fun alone => ?_
  rcases resting.untold alone with ⟨-, none⟩ | ⟨other, present, untold⟩
  · rw [running] at none
    cases none
  · obtain rfl := Option.some.inj (running.symm.trans present)
    exact Nat.not_lt_of_le untold told

namespace Fleet

variable {fleet later : Fleet} {serial : Nat} {boot : Boot} {guest : Guest}
variable {asked : Nat → Option Nat}

/-! ### A request is answered once -/

/-- A request was given an answer at a time. -/
def IsTold (fleet : Fleet) (serial : Nat) (outcome : Except FleetError Vm) (time : Nat) : Prop :=
  ∃ boot, fleet.daemon.boots[serial]? = some boot ∧ boot.request = .answered outcome ∧
    fleet.answersOf serial = [time]

variable {outcome : Except FleetError Vm} {time : Nat}

theorem IsTold.answer? (told : fleet.IsTold serial outcome time) :
    fleet.answer? serial = some (outcome, time) := by
  obtain ⟨boot, found, phase, told⟩ := told
  exact answer?_of_told found phase told

theorem IsTold.onset (told : fleet.IsTold serial outcome time) {action : Action}
    (onset : Onset fleet action later) : later.IsTold serial outcome time := by
  obtain ⟨boot, found, phase, told⟩ := told
  cases onset with
  | arrival draft nobody =>
    refine ⟨boot, ?_, phase, told⟩
    exact (List.getElem?_append_left (List.getElem?_eq_some_iff.mp found).1).trans found
  | halt identities daemon halts => exact ⟨boot, halts.boots ▸ found, phase, told⟩
  | aside _ nobody alike now scripts guests answeredAt =>
    refine ⟨boot, alike.boots ▸ found, phase, ?_⟩
    unfold answersOf at told ⊢
    rw [answeredAt, told]

theorem IsTold.happen (told : fleet.IsTold serial outcome time) {place : Nat} {going : Boot}
    {event : Event} (due : fleet.due? = some (place, going, event)) :
    (fleet.happen place going event).IsTold serial outcome time := by
  obtain ⟨boot, found, phase, told⟩ := told
  obtain ⟨present, -⟩ := next?_of_due? due
  obtain ⟨next, after, stepped, moved, boots, -⟩ := happen_of_due? due
  obtain ⟨kept, place', phase⟩ :=
    Daemon.answered_turn (Daemon.turn_of_rule (Daemon.rule_of_step? stepped)) found phase
  refine ⟨kept, moved ▸ place', phase, ?_⟩
  have here : next.boots[place]? = some after := by
    rw [boots, Daemon.boots_set present, if_pos rfl]
  rw [answersOf_happen stepped here]
  split
  · rename_i same
    rw [same, told, Outlook.told_singleton]
  · exact told

/-- An answer that was given stays, whatever is asked afterwards. -/
theorem IsTold.play (told : fleet.IsTold serial outcome time) (owned : fleet.daemon.Owned)
    (rest : fleet.due? = none) (history : List Action) :
    (fleet.play history).IsTold serial outcome time :=
  play_keeps (fun fleet => fleet.IsTold serial outcome time)
    (fun told onset => told.onset onset) (fun told due => told.happen due)
    (fun told _ _ _ => told) told owned rest history

/-- Who waits for the answer of a request that has handed its machine over gets it. -/
theorem InOrder.await (inOrder : fleet.InOrder asked) (rest : fleet.due? = none)
    (found : fleet.daemon.boots[serial]? = some boot) (handed : boot.request.isAlone = false) :
    ((fleet.await serial).answer? serial).isSome = true := by
  obtain ⟨passed, still⟩ := passes_passWithin (fun later => later.isOver serial) none
    (eventsOfRequest * fleet.daemon.boots.length + 2) inOrder.owned rest
  replace passed : Passes fleet (fleet.await serial) := passed
  replace still : (fleet.await serial).due? = none := still
  obtain ⟨after, present, working⟩ := passed.handed found handed
  rcases ((inOrder.passes passed).resting still present).told with
    ⟨guest, running, race, waits⟩ | ⟨_, _, phase, told⟩ | broken
  · -- the deadline is still waited for, and the wait is not over
    have waits : after.request = .waiting := waits
    rcases await_ends inOrder.owned rest serial with done | never
    · unfold isOver Daemon.boot? at done
      rw [present, Option.any_some, waits] at done
      cases done
    · exact absurd (mem_momentsOf_deadline running race) (nextMoment?_eq_none never present _)
  · rw [answer?_of_told present phase told]
    rfl
  · have broken : after.request.isBroken = true := broken
    rw [RequestPhase.isAlone_of_isBroken broken] at working
    cases working

/-! ### The result -/

/-- The verdict on the boot of a runner. -/
def verdict (fleet : Fleet) (guest : Guest) : Verdict :=
  guest.verdict (fleet.deadline guest)

/-- The address of a record is that of the record of its request. -/
theorem InOrder.publicIp (inOrder : fleet.InOrder asked)
    (found : fleet.daemon.boots[serial]? = some boot) {address : String}
    (shown : ∀ vm, (fleet.outlook serial boot).record = some vm → vm.publicIp = address)
    (uuid : String) (vm : Vm)
    (member : (uuid, ⟨vm, serial⟩) ∈ fleet.daemon.shared.registry.active.rows) :
    vm.publicIp = address := by
  obtain ⟨other, present, -, entered⟩ := inOrder.entry member
  obtain rfl := Option.some.inj (found.symm.trans present)
  exact shown vm entered

end Fleet

end VmFleet.Rehearsal
