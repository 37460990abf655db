/-
This file says in which state a machine is reported when its boot succeeds. The race
records the address and moves the machine to running, but a machine that was asked to
end before does not move there: its boot succeeds all the same, and its record says
that it is ending. The invariant tells, for each request, that an address which is
still to come comes after the moment at which the end was asked for, and that a record
which was handed out shows the state that this moment allows.
-/

import VmFleet.Proofs.Rehearsal.Records
import VmFleet.Proofs.Supervision.Advance

namespace VmFleet.Rehearsal

/-- The state in which a machine is when its address is recorded, if somebody asked for its end
at a certain time. -/
def stateOnReport (asked : Option Nat) (report : Nat) : VmState :=
  if asked.any (· < report) then .halting else .running

/-! ### One request -/

/-- What a request says about its success. -/
structure Outlook.IsCandid (asked : Option Nat) (outlook : Outlook) : Prop where
  /-- An address that is still to come comes after the end was asked for, unless nobody waits for
  it. -/
  pending : outlook.boot.signal = .pending → outlook.boot.request.isBroken = false →
    ∀ guest report time, outlook.guest = some guest → guest.reportsAt = some report →
      asked = some time → time < report
  /-- The record of a success shows the state that the machine was in. -/
  ready : ∀ vm guest report, outlook.boot.signal = .ready vm → outlook.guest = some guest →
    guest.reportsAt = some report → vm.state = stateOnReport asked report
  /-- A request that is answered with a record has that record as its outcome. -/
  answered : ∀ vm, outlook.boot.request = .answered (.ok vm) → outlook.boot.signal = .ready vm

namespace Standing

variable {asked : Option Nat} {outlook : Outlook}

/-- A request without a runner was not asked to end. -/
theorem bare_or_manned (standing : Standing asked outlook) :
    (outlook.IsBare ∧ asked = none) ∨ ∃ guest, outlook.guest = some guest := by
  cases standing with
  | arrived bare phase gone silent nobody => exact .inl ⟨bare, nobody⟩
  | preparing vm bare phase entered address state silent nobody => exact .inl ⟨bare, nobody⟩
  | refused outcome time bare phase gone told nobody => exact .inl ⟨bare, nobody⟩
  | unjudged bare phase gone silent nobody => exact .inl ⟨bare, nobody⟩
  | quiet guest pending | heard guest pending | recorded guest vm pending | struck guest pending =>
    exact .inr ⟨guest, pending.manned.running⟩
  | abandoned guest vm manned | started guest vm manned | lapsed guest manned | unnoticed guest manned
  | decided guest time manned => exact .inr ⟨guest, manned.running⟩

/-- A record that the race has just kept shows whether the machine was asked to end. -/
theorem of_recorded (standing : Standing asked outlook) {vm : Vm}
    (race : outlook.boot.race = .recorded (some vm)) :
    ∃ guest, outlook.guest = some guest ∧ outlook.boot.signal = .pending ∧
      guest.reportsAt = some outlook.now ∧
      vm.state = if asked.isSome then .halting else .running := by
  have other : ∀ {phase : RacePhase}, outlook.boot.race = phase → phase ≠ .recorded (some vm) →
      False := fun same different => different (same.symm.trans race)
  cases standing with
  | arrived bare | preparing _ bare | refused _ _ bare | unjudged bare =>
    exact (other bare.race nofun).elim
  | abandoned guest vm manned phase absent | started guest vm manned phase absent =>
    exact (other absent nofun).elim
  | quiet guest pending opened =>
    rcases opened.race with waiting | waiting <;> exact (other waiting nofun).elim
  | heard guest pending phase => exact (other phase nofun).elim
  | recorded guest copy pending phase report entered attended =>
    obtain ⟨record, same, ⟨-, -, state⟩, -, -⟩ := attended.change report.watching
    obtain rfl := Option.some.inj (entered.symm.trans same)
    rw [phase] at race
    injection race with race
    obtain rfl := Option.some.inj race
    exact ⟨guest, pending.manned.running, pending.signal, report.report, pending.halted ▸ state⟩
  | struck guest pending phase => exact (other phase nofun).elim
  | lapsed guest manned phase => exact (other phase nofun).elim
  | unnoticed guest manned waiting =>
    rcases waiting with waiting | waiting <;> exact (other waiting nofun).elim
  | decided guest time manned finished => exact (other finished nofun).elim

end Standing

namespace Fleet

variable {fleet later : Fleet} {next : Daemon} {asked : Nat → Option Nat} {serial : Nat}
variable {boot after : Boot} {event : Event} {guest : Guest}

theorem reportsAt_noteHalt (now : Nat) (cancelled : Bool) (guest : Guest) :
    (guest.noteHalt now cancelled).reportsAt = guest.reportsAt := by
  unfold Guest.noteHalt
  split <;> rfl

/-- A runner reports when it was going to. -/
theorem reportsAt_happen (stepped : fleet.daemon.step? event = some next)
    (running : fleet.guest? serial = some guest) :
    ∃ later, (fleet.happen serial boot event).guest? serial = some later ∧
      later.reportsAt = guest.reportsAt := by
  have noted : ∃ later, (fleet.noted serial boot event).guest? serial = some later ∧
      later.reportsAt = guest.reportsAt := by
    cases event with
    | launch place outcome =>
      refine ⟨guest, ?_, rfl⟩
      cases willing : (fleet.scripts.head?.getD Script.quiet).refusal with
      | none =>
        refine (guest?_noteLaunch fleet serial serial boot willing).trans ?_
        rw [running, Option.some_or]
      | some error =>
        exact (guest?_noteLaunch_of_refusal fleet serial serial boot willing).trans running
    | exit place =>
      refine ⟨{ guest with endedAt := some fleet.now }, ?_, rfl⟩
      refine (guest?_noteExit fleet serial serial).trans ?_
      rw [running, Option.map_some, if_pos rfl]
    | _ => exact ⟨guest, running, rfl⟩
  obtain ⟨later, present, same⟩ := noted
  refine ⟨_, ?_, (reportsAt_noteHalt fleet.now (next.shared.registry.isCancelled serial) later).trans
    same⟩
  rw [guest?_happen stepped, present]
  rfl

/-! ### All requests -/

/-- Every request is candid, if machines were asked to end at the given times. -/
def Candid (asked : Nat → Option Nat) (fleet : Fleet) : Prop :=
  ∀ serial boot, fleet.daemon.boots[serial]? = some boot →
    (fleet.outlook serial boot).IsCandid (asked serial)

/-- What is due to a request leaves it candid. -/
theorem isCandid_happen (standing : Standing (asked serial) (fleet.outlook serial boot))
    (working : boot.request.isBroken = false)
    (candid : (fleet.outlook serial boot).IsCandid (asked serial))
    (stepped : fleet.daemon.step? event = some next)
    (onward : after = boot ∨ Daemon.Advance fleet.daemon event next serial boot after) :
    ((fleet.happen serial boot event).outlook serial after).IsCandid (asked serial) := by
  have pending : after.signal = .pending → boot.signal = .pending := by
    rcases onward with rfl | advance
    · exact id
    · exact advance.pending
  have ready : ∀ {vm}, after.signal = .ready vm →
      boot.signal = .ready vm ∨ boot.race = .recorded (some vm) := by
    rcases onward with rfl | advance
    · exact .inl
    · exact advance.ready
  have reports : ∀ {guest other report}, fleet.guest? serial = some guest →
      (fleet.happen serial boot event).guest? serial = some other →
      other.reportsAt = some report → guest.reportsAt = some report := by
    intro guest other report running present reports
    obtain ⟨later, there, same⟩ := reportsAt_happen stepped running
    obtain rfl := Option.some.inj (there.symm.trans present)
    exact same.symm.trans reports
  refine ⟨fun open' _ other report time running' reports' same => ?_,
    fun vm other report ready' running' reports' => ?_, fun vm answered => ?_⟩
  · rcases standing.bare_or_manned with ⟨-, nobody⟩ | ⟨guest, running⟩
    · rw [nobody] at same
      cases same
    · exact candid.pending (pending open') working guest report time running
        (reports running running' reports') same
  · rcases ready ready' with before | recorded
    · rcases standing.bare_or_manned with ⟨bare, -⟩ | ⟨guest, running⟩
      · have open' := bare.signal
        rw [show (fleet.outlook serial boot).boot.signal = _ from before] at open'
        cases open'
      · exact candid.ready vm guest report before running (reports running running' reports')
    · obtain ⟨guest, running, open', now, state⟩ := standing.of_recorded recorded
      have report := reports running running' reports'
      rw [now] at report
      obtain rfl := Option.some.inj report
      rw [state, stateOnReport]
      cases same : asked serial with
      | none => rfl
      | some time =>
        have before := candid.pending open' working guest _ time running now same
        simp [before]
  · rcases onward with rfl | advance
    · exact candid.answered vm answered
    · exact advance.answered (candid.answered vm) answered

theorem Candid.happen (candid : fleet.Candid asked) (inOrder : fleet.InOrder asked)
    (due : fleet.due? = some (serial, boot, event)) :
    (fleet.happen serial boot event).Candid asked := by
  obtain ⟨found, happening⟩ := next?_of_due? due
  have standing := inOrder.standing serial boot found
  obtain ⟨subject, -⟩ := furthers_of_next? found happening
  obtain ⟨next, after, stepped, moved, boots, -⟩ := happen_of_due? due
  have rule := Daemon.rule_of_step? stepped
  have present : next.boots[serial]? = some after := by
    rw [boots, Daemon.boots_set found, if_pos rfl]
  intro other theirs found'
  rw [moved, boots, Daemon.boots_set found] at found'
  split at found'
  · rename_i same
    subst same
    obtain rfl := Option.some.inj found'
    have working := working_of_next? inOrder.owned found happening
    exact isCandid_happen standing working (candid serial boot found) stepped
      ((Daemon.advances_of_rule rule).onward found present)
  · rename_i different
    have spared := inOrder.owned.spares_of_rule rule subject found standing.holds
    rw [outlook_happen_of_ne stepped present spared (Ne.symm different) theirs
      (inOrder.standing other theirs found').isMarked]
    exact candid other theirs found'

theorem Candid.wait (candid : fleet.Candid asked) (moment : Nat) :
    { fleet with now := moment }.Candid asked := fun serial boot found =>
  ⟨(candid serial boot found).pending, (candid serial boot found).ready,
    (candid serial boot found).answered⟩

/-- A passage leaves every request candid. -/
theorem Candid.passes (candid : fleet.Candid asked) (inOrder : fleet.InOrder asked)
    (passed : Passes fleet later) : later.Candid asked :=
  (Passes.keeps (fun fleet => fleet.InOrder asked ∧ fleet.Candid asked)
    (fun both due => ⟨both.1.happen due, both.2.happen both.1 due⟩)
    (fun both rest onward free => ⟨both.1.wait rest onward free, both.2.wait _⟩)
    ⟨inOrder, candid⟩ passed).2

/-! ### Onsets -/

theorem Candid.submit (candid : fleet.Candid asked) (inOrder : fleet.InOrder asked) (draft : Vm) :
    { fleet with daemon := fleet.daemon.submit draft }.Candid asked := by
  intro serial boot found
  have appended : (fleet.daemon.boots ++ [Boot.ofDraft draft])[serial]? = some boot := found
  rw [List.getElem?_append] at appended
  split at appended
  · exact ⟨(candid serial boot appended).pending, (candid serial boot appended).ready,
      (candid serial boot appended).answered⟩
  · rename_i outside
    obtain ⟨-, nobody⟩ := inOrder.fresh serial (Nat.le_of_not_lt outside)
    obtain rfl := List.mem_singleton.mp (List.mem_of_getElem? appended)
    refine ⟨fun _ _ guest report time _ _ same => ?_, fun vm _ _ ready => ?_, fun vm answered => ?_⟩
    · rw [nobody] at same
      cases same
    · exact BootSignal.noConfusion (show BootSignal.pending = .ready vm from ready)
    · exact RequestPhase.noConfusion
        (show RequestPhase.arrived = .answered (.ok vm) from answered)

theorem Candid.aside (candid : fleet.Candid asked)
    (alike : Daemon.Alike later.daemon fleet.daemon) (guests : later.guests = fleet.guests) :
    later.Candid asked := by
  intro serial boot found
  rw [alike.boots] at found
  have running : later.guest? serial = fleet.guest? serial :=
    congrArg (·.find? (·.serial == serial)) guests
  obtain ⟨pending, ready, answered⟩ := candid serial boot found
  exact ⟨fun open' working guest report time present => pending open' working guest report time
      (running.symm.trans present),
    fun vm guest report settled present => ready vm guest report settled
      (running.symm.trans present), answered⟩

end Fleet

/-- A request at rest whose machine is asked to end now stays candid. -/
theorem Outlook.IsCandid.halt {asked : Option Nat} {outlook : Outlook}
    (candid : outlook.IsCandid asked) (resting : Resting asked outlook) {record : Vm}
    (entered : outlook.record = some record) (vm : Vm) :
    IsCandid (asked.or (some outlook.now))
      { outlook with
        guest := outlook.guest.map (Guest.noteHalt outlook.now true)
        record := some vm
        cancelled := true } := by
  have earlier : ∀ {guest other report}, outlook.guest = some guest →
      outlook.guest.map (Guest.noteHalt outlook.now true) = some other →
      other.reportsAt = some report → guest.reportsAt = some report := by
    intro guest other report running present reports
    rw [running] at present
    obtain rfl := Option.some.inj present
    rw [← Fleet.reportsAt_noteHalt outlook.now true guest]
    exact reports
  cases resting with
  | refused outcome time bare phase gone | unjudged bare phase gone =>
    rw [gone] at entered
    cases entered
  | abandoned guest other manned phase race reaper signal =>
    refine ⟨fun _ working => ?_, fun vm other report ready => ?_, candid.answered⟩
    · rw [show outlook.boot.request = _ from phase] at working
      cases working
    · rw [show outlook.boot.signal = _ from ready] at signal
      cases signal
  | left guest time ending manned race settles phase told halted past reaper gone ended ends
      elapsed =>
    rw [gone] at entered
    cases entered
  | booting guest other pending race watching present shows alive report deadline ahead =>
    have open' := pending.signal
    have working : outlook.boot.request.isBroken = false := by
      rw [pending.request]
      rfl
    refine ⟨fun _ _ other time moment running reports same => ?_, fun vm other time ready => ?_,
      candid.answered⟩
    · have reports := earlier pending.manned.running running reports
      rcases Option.or_eq_some_iff.mp same with before | ⟨-, now⟩
      · exact candid.pending open' working guest time moment pending.manned.running reports before
      · obtain rfl := Option.some.inj now
        exact (report time reports).2
    · rw [show outlook.boot.signal = _ from ready] at open'
      cases open'
  | living guest time other manned race settles phase told halted past watching present shows alive
      ahead =>
    refine ⟨fun open' => ?_, fun vm other report ready running reports => ?_, candid.answered⟩
    · rw [show outlook.boot.signal = _ from open'] at settles
      exact settles.elim
    · have reports := earlier manned.running running reports
      rw [candid.ready vm guest report ready manned.running reports]
      rw [show outlook.boot.signal = _ from ready] at settles
      obtain ⟨-, told, -, -⟩ := settles
      obtain rfl := Option.some.inj (told.symm.trans reports)
      unfold stateOnReport
      cases asked with
      | some moment => rfl
      | none =>
        -- whoever asks after the address was reported comes too late
        simp [Nat.not_lt_of_le past]

namespace Fleet

variable {fleet later : Fleet} {asked : Nat → Option Nat} {action : Action}

theorem Candid.halt (candid : fleet.Candid asked) (inOrder : fleet.InOrder asked)
    (rest : fleet.due? = none) {daemon : Daemon} {identities : List String}
    (halts : fleet.Halts action identities daemon) :
    (noteHalts { fleet with daemon }).Candid (askedWith asked fleet action) := by
  intro serial boot found
  have present : fleet.daemon.boots[serial]? = some boot := halts.boots ▸ found
  unfold askedWith
  rcases halts.outlook_cases inOrder present with ⟨asks, vm, entered, same⟩ | ⟨spared, same⟩
  · rw [asks, same, if_pos rfl]
    exact (candid serial boot present).halt (inOrder.resting rest present) entered _
  · rw [spared, same, if_neg Bool.false_ne_true, Option.or_none]
    exact candid serial boot present

/-- However an action begins, every request stays candid. -/
theorem Candid.onset (candid : fleet.Candid asked) (inOrder : fleet.InOrder asked)
    (rest : fleet.due? = none) (onset : Onset fleet action later) :
    later.Candid (askedWith asked fleet action) := by
  cases onset with
  | arrival draft nobody =>
    rw [askedWith_of_nobody nobody]
    exact candid.submit inOrder draft
  | halt identities daemon halts => exact candid.halt inOrder rest halts
  | aside _ nobody alike now scripts guests answeredAt =>
    rw [askedWith_of_nobody nobody]
    exact candid.aside alike guests

theorem candid_initial (setup : Setup) (tree : Tree) (scripts : List Script)
    (source : Nat → Uuid) :
    (Fleet.initial (Daemon.initial setup tree) scripts source).Candid fun _ => none :=
  fun _ _ found => nomatch found

/-- A history leaves every request candid. -/
theorem Candid.play (candid : fleet.Candid asked) (inOrder : fleet.InOrder asked)
    (rest : fleet.due? = none) (history : List Action) :
    (fleet.play history).Candid fun serial =>
      (asked serial).or (fleet.askedAt serial history) := by
  induction history generalizing fleet asked with
  | nil =>
    simp only [askedAt, Option.or_none]
    exact candid
  | cons action history inductionHypothesis =>
    obtain ⟨onset, begun, passed, still⟩ := unfolds_act inOrder.owned rest action
    have begin' := inOrder.onset rest begun
    have played := inductionHypothesis ((candid.onset inOrder rest begun).passes begin' passed)
      (begin'.passes passed) still
    rw [or_askedAt_cons]
    exact played

/-! ### The result -/

/-- A success agrees with its runner: the address is the reported one, the process is that of the
runner, and the state shows whether the machine was asked to end before it reported. -/
structure SuccessAgrees (asked : Option Nat) (vm : Vm) (guest : Guest) (time : Nat) : Prop where
  reported : guest.reportsAt = some time
  address : vm.publicIp = guest.address
  pid : vm.pid = guest.pid ∧ vm.pid ≠ Vm.noPid
  state : vm.state = stateOnReport asked time

theorem exists_of_answer? {serial time : Nat} {outcome : Except FleetError Vm}
    (told : fleet.answer? serial = some (outcome, time)) :
    ∃ boot, fleet.daemon.boots[serial]? = some boot ∧ boot.request = .answered outcome := by
  unfold answer? at told
  obtain ⟨boot, found, told⟩ := Option.bind_eq_some_iff.mp told
  obtain ⟨_, -, told⟩ := Option.bind_eq_some_iff.mp told
  refine ⟨boot, found, ?_⟩
  cases phase : boot.request with
  | answered other =>
    simp only [phase] at told
    cases told
    rfl
  | _ =>
    simp only [phase] at told
    cases told

/-- A request that succeeded has a runner which its record shows. -/
theorem Candid.successAgrees (candid : fleet.Candid asked) (inOrder : fleet.InOrder asked)
    (rest : fleet.due? = none) {serial time : Nat} {vm : Vm}
    (succeeded : fleet.answer? serial = some (.ok vm, time)) :
    ∃ guest, fleet.guest? serial = some guest ∧
      SuccessAgrees (asked serial) vm guest time := by
  obtain ⟨boot, found, answered⟩ := exists_of_answer? succeeded
  have ready : boot.signal = .ready vm := (candid serial boot found).answered vm answered
  have agrees : ∀ {guest : Guest} {moment : Nat}, fleet.guest? serial = some guest →
      guest.Settles (fleet.deadline guest) boot.signal moment →
      fleet.answersOf serial = [moment] → SuccessAgrees (asked serial) vm guest time := by
    intro guest moment running settles told
    obtain ⟨-, rfl⟩ := Prod.mk.inj
      (Option.some.inj ((answer?_of_told found answered told).symm.trans succeeded))
    rw [ready] at settles
    obtain ⟨⟨address, pid⟩, reports, -, -⟩ := settles
    exact ⟨reports, address, ⟨pid, pid ▸ pid_ne_noPid _⟩,
      (candid serial boot found).ready vm guest moment ready running reports⟩
  cases inOrder.resting rest found with
  | refused outcome moment bare | unjudged bare =>
    have pending : boot.signal = .pending := bare.signal
    rw [ready] at pending
    cases pending
  | abandoned guest record manned phase =>
    have broken : boot.request = .abandoned := phase
    rw [answered] at broken
    cases broken
  | booting guest record pending =>
    have waits : boot.request = .waiting := pending.request
    rw [answered] at waits
    cases waits
  | living guest moment record manned race settles phase told =>
    exact ⟨guest, manned.running, agrees manned.running settles told⟩
  | left guest moment ending manned race settles phase told =>
    exact ⟨guest, manned.running, agrees manned.running settles told⟩

/-- After every history, a request that succeeded shows what its runner reported: the record has
its address and its process, which are there, and says that the machine is running, or that it is
halting if somebody asked for its end before the address was reported. -/
theorem success_shows_reported {setup : Setup} {tree : Tree} {scripts : List Script}
    {source : Nat → Uuid} (history : List Action) {fleet : Fleet}
    (played : (Fleet.initial (Daemon.initial setup tree) scripts source).play history = fleet)
    {serial time : Nat} {vm : Vm} (succeeded : fleet.answer? serial = some (.ok vm, time)) :
    ∃ guest, fleet.guest? serial = some guest ∧
      SuccessAgrees ((Fleet.initial (Daemon.initial setup tree) scripts source).askedAt serial
        history) vm guest time ∧
      ((∀ script ∈ scripts, script.address ≠ some "") → vm.publicIp ≠ "") := by
  obtain ⟨inOrder, rest⟩ := inOrder_play setup tree scripts source history
  have candid := (candid_initial setup tree scripts source).play
    (inOrder_initial setup tree scripts source) rfl history
  simp only [Option.none_or] at candid
  have speaks := speaks_play setup tree scripts source history
  rw [played] at inOrder rest candid speaks
  obtain ⟨guest, running, agrees⟩ := candid.successAgrees inOrder rest succeeded
  refine ⟨guest, running, agrees, fun spoken => ?_⟩
  rw [agrees.address]
  exact address_ne_empty ((speaks spoken).guests guest (List.mem_of_find?_eq_some running))

/-- The end of a machine is asked for while its boot is open. -/
def haltedEarly : List Action :=
  [.start (Vm.draft "alpha" "1.2.3"), .advance 600, .stop [], .wait 0]

theorem answer?_haltedEarly : ∃ vm,
    (twoRunners.play haltedEarly).answer? 0 = some (.ok vm, 1000) ∧ vm.state = .halting := by
  have shown : ((twoRunners.play haltedEarly).answer? 0).map
      (fun (outcome, time) => (outcome.toOption.map (·.state), time)) =
        some (some .halting, 1000) := by
    decide +kernel
  obtain ⟨⟨outcome, time⟩, answered, same⟩ := Option.map_eq_some_iff.mp shown
  obtain ⟨succeeded, rfl⟩ := Prod.mk.inj same
  cases outcome with
  | error error => cases succeeded
  | ok vm => exact ⟨vm, answered, Option.some.inj succeeded⟩

theorem success_shows_reported_of_haltedEarly : ∃ vm guest,
    (twoRunners.play haltedEarly).answer? 0 = some (.ok vm, 1000) ∧
      (twoRunners.play haltedEarly).guest? 0 = some guest ∧
      SuccessAgrees (twoRunners.askedAt 0 haltedEarly) vm guest 1000 ∧ vm.publicIp ≠ "" := by
  obtain ⟨vm, succeeded, -⟩ := answer?_haltedEarly
  obtain ⟨guest, running, agrees, filled⟩ := success_shows_reported haltedEarly rfl succeeded
  exact ⟨vm, guest, succeeded, running, agrees, filled (by decide)⟩

/-- A machine that was asked to end before its address came is reported as a success all the same,
with a record which says that it is halting. -/
theorem halting_machine_succeeds : ∃ vm,
    twoRunners.askedAt 0 haltedEarly = some 600 ∧
      (twoRunners.play haltedEarly).answer? 0 = some (.ok vm, 1000) ∧ vm.state ≠ .running := by
  obtain ⟨vm, succeeded, halting⟩ := answer?_haltedEarly
  refine ⟨vm, by decide +kernel, succeeded, ?_⟩
  rw [halting]
  decide

end Fleet

end VmFleet.Rehearsal
