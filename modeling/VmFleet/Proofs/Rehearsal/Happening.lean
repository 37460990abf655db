/-
This file says what one event makes of the outlook of its request, and follows a request
from its arrival to the moment at which its runner starts and is handed over. The reaper
is treated once, since it goes its way whether the outcome is settled or not.
-/

import VmFleet.Proofs.Rehearsal.Standing

namespace VmFleet

/-- The phase that follows for a reaper. -/
def ReaperPhase.next : ReaperPhase → ReaperPhase
  | .absent => .absent
  | .watching => .exited
  | .exited => .deregistered
  | .deregistered => .settled
  | .settled => .grace
  | .grace | .finished => .finished

/-- The request after the next event of its reaper. -/
def Boot.reaped (boot : Boot) : Boot :=
  { boot with
    reaper := boot.reaper.next
    signal :=
      if boot.reaper = .deregistered then (boot.signal.settle .terminatedEarly).1
      else boot.signal }

namespace Rehearsal

/-! ### Outlooks that move -/

namespace Outlook

variable {outlook : Outlook} {guest : Guest} {signal : BootSignal} {after : Boot} {time : Nat}

theorem IsBare.isMarked (bare : outlook.IsBare) : outlook.IsMarked := by
  intro guest running
  rw [bare.guest] at running
  cases running

theorem IsBare.stays (bare : outlook.IsBare) {draft vm : Vm} {pid : Int} {request : RequestPhase}
    {record : Option Vm} {answers : List Nat} :
    IsBare { outlook with
      boot := ⟨draft, vm, pid, request, outlook.boot.race, outlook.boot.reaper,
        outlook.boot.signal⟩
      record, answers } :=
  ⟨bare.guest, bare.race, bare.reaper, bare.signal, bare.cancelled⟩

theorem IsManned.isMarked (manned : outlook.IsManned guest) : outlook.IsMarked := by
  intro other running
  obtain rfl := Option.some.inj (manned.running.symm.trans running)
  exact manned.cancelled

/-- The outlook after the phases of the request have moved. -/
def move (outlook : Outlook) (boot : Boot) : Outlook :=
  { outlook with boot, answers := Fleet.told outlook.now boot.request outlook.answers }

theorem move_with_guest (running : outlook.guest = some guest) :
    outlook.move after =
      { outlook.move after with guest := some guest, record := outlook.record } := by
  rw [← running]
  rfl

theorem shift_eq (marked : outlook.IsMarked) (after : Boot) (record : Option Vm) :
    outlook.shift after outlook.guest record outlook.cancelled =
      { outlook.move after with record } := by
  unfold shift move
  rw [marked.noteHalt]

theorem told_of_unanswered {now : Nat} {request : RequestPhase}
    (unanswered : request.isAnswered = false) (answers : List Nat) :
    Fleet.told now request answers = answers := by
  unfold Fleet.told
  rw [unanswered, Bool.not_false, Bool.true_or, if_pos rfl]

theorem told_singleton (now time : Nat) (request : RequestPhase) :
    Fleet.told now request [time] = [time] := by
  unfold Fleet.told
  rw [List.isEmpty_cons, Bool.not_false, Bool.or_true, if_pos rfl]

theorem Attended.move (attended : outlook.Attended guest signal)
    (same : after.reaper = outlook.boot.reaper) : (outlook.move after).Attended guest signal := by
  cases attended with
  | watching vm phase entered shows alive ahead =>
    exact .watching vm (same.trans phase) entered shows alive ahead
  | exited vm phase entered shows ended ends =>
    exact .exited vm (same.trans phase) entered shows ended ends
  | leaving phase gone ended ends =>
    exact .leaving (phase.imp same.trans same.trans) gone ended ends
  | left ending phase gone ended ends past =>
    exact .left ending (phase.imp same.trans same.trans) gone ended ends past

/-- While the runner is alive its record stands, and it may be changed. -/
theorem Attended.change (attended : outlook.Attended guest signal)
    (watching : outlook.boot.reaper = .watching) :
    ∃ vm, outlook.record = some vm ∧ guest.Shows vm signal ∧ guest.endedAt = none ∧
      ∀ ending, guest.endsAt = some ending → outlook.now ≤ ending := by
  cases attended with
  | watching vm phase entered shows alive ahead => exact ⟨vm, entered, shows, alive, ahead⟩
  | exited vm phase entered shows ended ends => rw [watching] at phase; cases phase
  | leaving phase gone ended ends =>
    rw [watching] at phase
    rcases phase with phase | phase <;> cases phase
  | left ending phase gone ended ends past =>
    rw [watching] at phase; rcases phase with phase | phase <;> cases phase

/-- A record that is gone shows no outcome any more. -/
theorem Attended.gone (attended : outlook.Attended guest signal)
    (phase : outlook.boot.reaper = .settled) (other : BootSignal) :
    outlook.Attended guest other ∧ guest.endsAt = some outlook.now := by
  cases attended with
  | watching vm phase' entered shows alive ahead => rw [phase] at phase'; cases phase'
  | exited vm phase' entered shows ended ends => rw [phase] at phase'; cases phase'
  | leaving phase' gone ended ends => exact ⟨.leaving phase' gone ended ends, ends⟩
  | left ending phase' gone ended ends past =>
    rw [phase] at phase'; rcases phase' with phase' | phase' <;> cases phase'

theorem IsPending.move {asked : Option Nat} (pending : outlook.IsPending guest asked)
    (request : after.request = outlook.boot.request) (signal : after.signal = outlook.boot.signal)
    (pid : after.pid = outlook.boot.pid) : (outlook.move after).IsPending guest asked where
  manned := ⟨pending.manned.running, pid.trans pending.manned.pid, pending.manned.cancelled⟩
  request := request.trans pending.request
  signal := signal.trans pending.signal
  halted := pending.halted
  silent := by
    refine (told_of_unanswered ?_ _).trans pending.silent
    rw [request, pending.request]
    rfl

theorem Replied.move (replied : outlook.Replied time)
    (request : after.request = outlook.boot.request) (signal : after.signal = outlook.boot.signal)
    (vm : after.vm = outlook.boot.vm) : (outlook.move after).Replied time := by
  cases replied with
  | soon phase silent now =>
    refine .soon (request.trans phase) ?_ now
    exact (told_of_unanswered (by rw [request, phase]; rfl) _).trans silent
  | done phase told =>
    refine .done ?_ ?_
    · show after.request = .answered (Boot.answerOf after.vm.name outlook.bootTimeout after.signal)
      rw [request, signal, vm, phase]
    · show Fleet.told outlook.now after.request outlook.answers = [time]
      rw [told, told_singleton]

/-- The request takes its answer. -/
theorem Replied.answer (silent : outlook.answers = []) (now : outlook.now = time)
    (answered : after.request = .answered
      (Boot.answerOf after.vm.name outlook.bootTimeout after.signal)) :
    (outlook.move after).Replied time := by
  refine .done answered ?_
  show Fleet.told outlook.now after.request outlook.answers = [time]
  rw [silent, answered, ← now]
  rfl

end Outlook

namespace Fleet

variable {fleet : Fleet} {next : Daemon} {serial : Nat} {boot after : Boot} {event : Event}
variable {asked : Option Nat} {guest : Guest} {signal : BootSignal}

/-! ### One event -/

/-- The event leaves its request standing somewhere. -/
def Keeps (asked : Option Nat) (fleet : Fleet) (serial : Nat) (boot : Boot) (event : Event) :
    Prop :=
  ∃ after, (fleet.happen serial boot event).daemon.boots[serial]? = some after ∧
    Standing asked ((fleet.happen serial boot event).outlook serial after)

theorem boots_happen (rule : Daemon.Rule fleet.daemon event next) :
    (fleet.happen serial boot event).daemon.boots = next.boots := by
  rw [daemon_happen, Daemon.step?_of_rule rule, Option.getD_some]

theorem keeps_of_shift (after : Boot) (rule : Daemon.Rule fleet.daemon event next)
    (present : next.boots[serial]? = some after)
    (standing : Standing asked ((fleet.outlook serial boot).shift after
      ((fleet.noted serial boot event).guest? serial) (next.record serial after)
      (next.shared.registry.isCancelled serial))) : Keeps asked fleet serial boot event := by
  refine ⟨after, (congrArg (·[serial]?) (boots_happen rule)).trans present, ?_⟩
  rw [outlook_happen (Daemon.step?_of_rule rule) present]
  exact standing

/-- An event that changes the record and leaves the token and the runner alone. -/
theorem happen_of_record (after : Boot) (found : fleet.daemon.boots[serial]? = some boot)
    (rule : Daemon.Rule fleet.daemon event next)
    (boots : next.boots = fleet.daemon.boots.set serial after)
    (unnoted : (fleet.noted serial boot event).guest? serial = fleet.guest? serial)
    (token : next.shared.registry.isCancelled serial =
      fleet.daemon.shared.registry.isCancelled serial)
    (marked : (fleet.outlook serial boot).IsMarked) :
    (fleet.happen serial boot event).daemon.boots[serial]? = some after ∧
      (fleet.happen serial boot event).outlook serial after =
        { (fleet.outlook serial boot).move after with record := next.record serial after } := by
  have present : next.boots[serial]? = some after := by
    rw [boots, Daemon.boots_set found, if_pos rfl]
  refine ⟨(congrArg (·[serial]?) (boots_happen rule)).trans present, ?_⟩
  rw [outlook_happen (Daemon.step?_of_rule rule) present, unnoted, token]
  exact Outlook.shift_eq marked after _

theorem keeps_of_record (after : Boot) (found : fleet.daemon.boots[serial]? = some boot)
    (rule : Daemon.Rule fleet.daemon event next)
    (boots : next.boots = fleet.daemon.boots.set serial after)
    (unnoted : (fleet.noted serial boot event).guest? serial = fleet.guest? serial)
    (token : next.shared.registry.isCancelled serial =
      fleet.daemon.shared.registry.isCancelled serial)
    (marked : (fleet.outlook serial boot).IsMarked)
    (standing : Standing asked
      { (fleet.outlook serial boot).move after with record := next.record serial after }) :
    Keeps asked fleet serial boot event := by
  obtain ⟨present, same⟩ := happen_of_record after found rule boots unnoted token marked
  exact ⟨after, present, same ▸ standing⟩

/-- An event that moves the phases of its request alone. -/
theorem happen_of_move (after : Boot) (found : fleet.daemon.boots[serial]? = some boot)
    (rule : Daemon.Rule fleet.daemon event next)
    (boots : next.boots = fleet.daemon.boots.set serial after)
    (unnoted : (fleet.noted serial boot event).guest? serial = fleet.guest? serial)
    (registry : next.shared.registry = fleet.daemon.shared.registry) (vm : after.vm = boot.vm)
    (marked : (fleet.outlook serial boot).IsMarked) :
    (fleet.happen serial boot event).daemon.boots[serial]? = some after ∧
      (fleet.happen serial boot event).outlook serial after =
        (fleet.outlook serial boot).move after := by
  obtain ⟨present, same⟩ :=
    happen_of_record after found rule boots unnoted (by rw [registry]) marked
  refine ⟨present, same.trans ?_⟩
  unfold Daemon.record
  rw [registry, vm]
  rfl

theorem keeps_of_move (after : Boot) (found : fleet.daemon.boots[serial]? = some boot)
    (rule : Daemon.Rule fleet.daemon event next)
    (boots : next.boots = fleet.daemon.boots.set serial after)
    (unnoted : (fleet.noted serial boot event).guest? serial = fleet.guest? serial)
    (registry : next.shared.registry = fleet.daemon.shared.registry) (vm : after.vm = boot.vm)
    (marked : (fleet.outlook serial boot).IsMarked)
    (standing : Standing asked ((fleet.outlook serial boot).move after)) :
    Keeps asked fleet serial boot event := by
  obtain ⟨present, same⟩ := happen_of_move after found rule boots unnoted registry vm marked
  exact ⟨after, present, same ▸ standing⟩

theorem reached_iff {moment : Option Nat} :
    fleet.reached moment = true ↔ ∃ time, moment = some time ∧ time ≤ fleet.now := by
  unfold reached
  rw [Option.any_eq_true]
  simp only [decide_eq_true_eq]

/-! ### A request that works alone -/

theorem keeps_arrived (found : fleet.daemon.boots[serial]? = some boot)
    (bare : (fleet.outlook serial boot).IsBare) (phase : boot.request = .arrived)
    (gone : (fleet.outlook serial boot).record = none)
    (silent : (fleet.outlook serial boot).answers = []) (nobody : asked = none)
    (due : fleet.next? serial boot = some event) : Keeps asked fleet serial boot event := by
  obtain rfl : event = .reserve serial fleet.draws 0 := by
    simpa [next?, requestEvent?, phase, eq_comm] using due
  have rule := Daemon.Rule.reserve fleet.draws 0 found phase
  have shared : (fleet.daemon.reserve serial boot fleet.draws 0).shared =
      (fleet.daemon.admission serial boot fleet.draws 0).shared := rfl
  cases judged : (fleet.daemon.admission serial boot fleet.draws 0).outcome with
  | refused error =>
    have same := Daemon.shared_reserve fleet.draws 0 fun vm admitted => by
      rw [judged] at admitted
      cases admitted
    refine keeps_of_move { boot with request := .answered (.error error) } found rule ?_ rfl
      (congrArg (·.registry) same) rfl bare.isMarked
      (.refused (.error error) fleet.now bare.stays rfl gone ?_ nobody)
    · simp only [Daemon.reserve, judged, Boot.ruled, Daemon.put]
    · show told fleet.now _ (fleet.outlook serial boot).answers = [fleet.now]
      rw [silent]
      rfl
  | broken =>
    have same := Daemon.shared_reserve fleet.draws 0 fun vm admitted => by
      rw [judged] at admitted
      cases admitted
    refine keeps_of_move { boot with request := .unjudged } found rule ?_ rfl
      (congrArg (·.registry) same) rfl bare.isMarked
      (.unjudged bare.stays rfl gone silent nobody)
    simp only [Daemon.reserve, judged, Boot.ruled, Daemon.put]
  | admitted vm =>
    obtain ⟨-, -, ⟨identity, -, enrolled⟩, -, entered⟩ := Shared.accept_eq_admitted judged
    replace shared := shared.trans entered
    refine keeps_of_record { boot with vm, request := .reserved } found rule ?_ rfl
      (by rw [shared]; rfl) bare.isMarked
      (.preparing vm bare.stays rfl ?_ ?_ ?_ silent nobody)
    · simp only [Daemon.reserve, judged, Boot.ruled, Daemon.put]
    · refine Registry.entryOf_eq_some_iff.mpr ?_
      rw [shared, Keyed.find?_insert, if_pos rfl]
    · rw [enrolled]
      rfl
    · intro shown same
      obtain rfl := Option.some.inj same
      rw [enrolled]
      rfl

/-- The plan of a boot is made, or the reservation is to be undone. -/
theorem exists_prepare (daemon : Daemon) (serial : Nat) (boot : Boot) :
    ∃ request, (daemon.prepare serial boot).boots = daemon.boots.set serial { boot with request } ∧
      request.isPreparing = true ∧ ∀ shown, request.shown? = some shown → shown = .reserved := by
  refine ⟨_, rfl, ?_⟩
  split
  · exact ⟨rfl, fun shown same => (Option.some.inj same).symm⟩
  · exact ⟨rfl, fun shown same => nomatch same⟩

section Preparing

variable {vm : Vm}

theorem keeps_reserved (found : fleet.daemon.boots[serial]? = some boot)
    (bare : (fleet.outlook serial boot).IsBare) (request : boot.request = .reserved)
    (entered : (fleet.outlook serial boot).record = some vm) (address : vm.publicIp = "")
    (state : vm.state = .reserved) (silent : (fleet.outlook serial boot).answers = [])
    (nobody : asked = none) (due : fleet.next? serial boot = some event) :
    Keeps asked fleet serial boot event := by
  obtain rfl : event = .prepare serial := by
    simpa [next?, requestEvent?, request, eq_comm] using due
  obtain ⟨onward, boots, prepares, shows⟩ := exists_prepare fleet.daemon serial boot
  refine keeps_of_move _ found (.prepare found request) boots rfl rfl rfl bare.isMarked
    (.preparing vm bare.stays prepares entered address (fun shown same => ?_) ?_ nobody)
  · rw [shows shown same, state]
  · have alone := RequestPhase.isAlone_of_isPreparing prepares
    exact (Outlook.told_of_unanswered (RequestPhase.isAnswered_of_isAlone alone) _).trans silent

theorem keeps_planned (found : fleet.daemon.boots[serial]? = some boot)
    (bare : (fleet.outlook serial boot).IsBare) {plan : BootPlan}
    (request : boot.request = .planned plan)
    (entered : (fleet.outlook serial boot).record = some vm) (address : vm.publicIp = "")
    (state : vm.state = .reserved) (silent : (fleet.outlook serial boot).answers = [])
    (nobody : asked = none) (due : fleet.next? serial boot = some event) :
    Keeps asked fleet serial boot event := by
  obtain rfl : event = .announce serial := by
    simpa [next?, requestEvent?, request, eq_comm] using due
  refine keeps_of_record { boot with request := .launching plan } found (.announce found request)
    rfl rfl (Registry.isCancelled_congr (Registry.cancelled_setState _ _ _) _) bare.isMarked
    (.preparing (vm.moveTo .spawning) bare.stays rfl ?_ ?_ (fun shown same => ?_) silent
      nobody)
  · show Registry.entryOf _ _ _ = _
    rw [Daemon.announce]
    refine (Registry.entryOf_setState _ _ _ _ _).trans ?_
    rw [if_pos rfl]
    exact congrArg (Option.map (·.moveTo .spawning)) entered
  · rw [Vm.publicIp_moveTo, address]
  · obtain rfl := Option.some.inj same
    rw [Vm.state_moveTo, state]
    rfl

/-- The runner cannot be started. -/
theorem keeps_launching_of_refusal (found : fleet.daemon.boots[serial]? = some boot)
    (bare : (fleet.outlook serial boot).IsBare) {plan : BootPlan}
    (request : boot.request = .launching plan)
    (entered : (fleet.outlook serial boot).record = some vm) (address : vm.publicIp = "")
    (silent : (fleet.outlook serial boot).answers = []) (nobody : asked = none)
    {error : FleetError}
    (willing : (fleet.scripts.head?.getD Script.quiet).refusal = some error) :
    Keeps asked fleet serial boot (.launch serial fleet.nextStart) := by
  have start : fleet.nextStart = .error error := by
    simp only [nextStart, willing]
  refine keeps_of_move { boot with request := .undoing (.spawnFailed boot.vm.name error.flatten) }
    found (.launch fleet.nextStart found request) ?_
    (guest?_noteLaunch_of_refusal fleet serial serial boot willing) ?_ rfl bare.isMarked
    (.preparing vm bare.stays rfl entered address nofun silent nobody)
  · rw [start]
    rfl
  · rw [start]
    rfl

/-- The runner is started. -/
theorem keeps_launching (found : fleet.daemon.boots[serial]? = some boot)
    (bare : (fleet.outlook serial boot).IsBare) {plan : BootPlan}
    (request : boot.request = .launching plan)
    (entered : (fleet.outlook serial boot).record = some vm) (address : vm.publicIp = "")
    (state : vm.state = .spawning) (silent : (fleet.outlook serial boot).answers = [])
    (nobody : asked = none) (willing : (fleet.scripts.head?.getD Script.quiet).refusal = none) :
    Keeps asked fleet serial boot (.launch serial fleet.nextStart) := by
  have start : fleet.nextStart =
      .ok ⟨fleet.nextPid, (fleet.scripts.head?.getD Script.quiet).console⟩ := by
    simp only [nextStart, willing]
  have registry : (fleet.daemon.launch serial boot fleet.nextStart).shared.registry =
      fleet.daemon.shared.registry := by
    rw [start]
    simp only [Daemon.launch]
    split <;> rfl
  have boots : (fleet.daemon.launch serial boot fleet.nextStart).boots =
      fleet.daemon.boots.set serial { boot with pid := fleet.nextPid, request := .started } := by
    rw [start]
    simp only [Daemon.launch]
    split <;> rfl
  have unmanned : fleet.guest? serial = none := bare.guest
  have manned := guest?_noteLaunch fleet serial serial boot willing
  rw [unmanned, if_pos rfl, Option.none_or] at manned
  have free : (fleet.daemon.launch serial boot fleet.nextStart).shared.registry.isCancelled serial =
      false := by
    rw [registry]
    exact bare.cancelled
  refine keeps_of_shift { boot with pid := fleet.nextPid, request := .started }
    (.launch fleet.nextStart found request) ?_ ?_
  · rw [boots, Daemon.boots_set found, if_pos rfl]
  · rw [show (fleet.noted serial boot (.launch serial fleet.nextStart)).guest? serial = _ from
      manned, free]
    refine .started _ vm ⟨rfl, rfl, rfl⟩ rfl bare.race bare.reaper bare.signal rfl rfl rfl
      ?_ address state silent nobody
    unfold Outlook.shift Daemon.record
    rw [registry]
    exact entered

theorem keeps_undoing (found : fleet.daemon.boots[serial]? = some boot)
    (bare : (fleet.outlook serial boot).IsBare) {error : FleetError}
    (request : boot.request = .undoing error)
    (silent : (fleet.outlook serial boot).answers = []) (nobody : asked = none)
    (due : fleet.next? serial boot = some event) : Keeps asked fleet serial boot event := by
  obtain rfl : event = .rollBack serial := by
    simpa [next?, requestEvent?, request, eq_comm] using due
  refine keeps_of_record { boot with request := .answered (.error error) } found
    (.rollBack found request) rfl rfl rfl bare.isMarked
    (.refused (.error error) fleet.now bare.stays rfl ?_ ?_ nobody)
  · refine (Registry.entryOf_remove _ _ _ _).trans ?_
    rw [if_pos rfl]
  · show told fleet.now _ (fleet.outlook serial boot).answers = [fleet.now]
    rw [silent]
    rfl

/-- A request that still prepares its machine goes on preparing, until the runner is started or
the request is answered. -/
theorem keeps_preparing (found : fleet.daemon.boots[serial]? = some boot)
    (bare : (fleet.outlook serial boot).IsBare) (phase : boot.request.isPreparing = true)
    (entered : (fleet.outlook serial boot).record = some vm) (address : vm.publicIp = "")
    (state : ∀ shown, boot.request.shown? = some shown → vm.state = shown)
    (silent : (fleet.outlook serial boot).answers = []) (nobody : asked = none)
    (due : fleet.next? serial boot = some event) : Keeps asked fleet serial boot event := by
  cases request : boot.request with
  | arrived | unjudged | started | abandoned | waiting | answered =>
    rw [request] at phase
    cases phase
  | reserved =>
    rw [request] at state
    exact keeps_reserved found bare request entered address (state _ rfl) silent nobody due
  | planned plan =>
    rw [request] at state
    exact keeps_planned found bare request entered address (state _ rfl) silent nobody due
  | launching plan =>
    rw [request] at state
    obtain rfl : event = .launch serial fleet.nextStart := by
      simpa [next?, requestEvent?, request, eq_comm] using due
    cases willing : (fleet.scripts.head?.getD Script.quiet).refusal with
    | some error =>
      exact keeps_launching_of_refusal found bare request entered address silent nobody willing
    | none =>
      exact keeps_launching found bare request entered address (state _ rfl) silent nobody willing
  | undoing error => exact keeps_undoing found bare request silent nobody due

end Preparing

/-- A runner that has just started is shown as one that has not reported yet. -/
theorem shows_started {vm : Vm} {pid : Int} (same : pid = guest.pid)
    (free : guest.haltedAt = none) (address : vm.publicIp = "") (state : vm.state = .spawning) :
    guest.Shows (Vm.moveTo { vm with pid } .awaitingAddress) .pending := by
  refine ⟨?_, ?_, ?_⟩
  · rw [Vm.pid_moveTo]
    exact same
  · rw [Vm.publicIp_moveTo]
    exact address
  · rw [Vm.state_moveTo, free]
    show (if vm.state.canMove .awaitingAddress then _ else _) = _
    rw [state]
    rfl

/-- The machine is handed over to the race and the reaper, or left to itself. -/
theorem keeps_started (found : fleet.daemon.boots[serial]? = some boot) {vm : Vm}
    (manned : (fleet.outlook serial boot).IsManned guest) (phase : boot.request = .started)
    (race : boot.race = .absent) (reaper : boot.reaper = .absent)
    (signal : boot.signal = .pending) (begun : guest.startedAt = fleet.now)
    (free : guest.haltedAt = none) (alive : guest.endedAt = none)
    (entered : (fleet.outlook serial boot).record = some vm) (address : vm.publicIp = "")
    (state : vm.state = .spawning) (silent : (fleet.outlook serial boot).answers = [])
    (nobody : asked = none) (due : fleet.next? serial boot = some event) :
    Keeps asked fleet serial boot event := by
  obtain rfl : event = .handOver serial (fleet.now / 1000 : Nat) := by
    simpa [next?, requestEvent?, phase, eq_comm] using due
  have rule := Daemon.Rule.handOver (fleet.now / 1000 : Nat) found phase
  have shows := shows_started manned.pid free address state
  have recorded : (fleet.daemon.recordProcess boot).shared.registry.entryOf boot.vm.uuid serial =
      some (Vm.moveTo { vm with pid := boot.pid } .awaitingAddress) := by
    refine (Registry.entryOf_setState _ _ _ _ _).trans ?_
    rw [if_pos rfl, Registry.entryOf_update, if_pos rfl]
    exact congrArg (fun record : Option Vm =>
      (record.map fun vm => { vm with pid := boot.pid }).map (·.moveTo .awaitingAddress)) entered
  have tokens := Registry.isCancelled_congr (Registry.cancelled_setState
    (fleet.daemon.shared.registry.update boot.vm.uuid fun vm => { vm with pid := boot.pid })
    boot.vm.uuid .awaitingAddress) serial
  rcases Int.lt_or_le _ _ with told | untold
  · rw [Daemon.handOver_of_told told] at rule
    refine keeps_of_record
      { boot with request := .waiting, race := .listening, reaper := .watching } found rule rfl
      rfl tokens manned.isMarked
      (.quiet guest ⟨⟨manned.running, manned.pid, manned.cancelled⟩, rfl, signal, ?_, silent⟩
        ⟨.inl rfl, fun report reports => ⟨rfl, ?_⟩, ?_⟩
        (.watching _ rfl recorded shows alive fun ending ends => ?_) (.inl rfl) (absurd rfl))
    · rw [free, nobody]
    · show fleet.now ≤ report
      rw [← begun]
      exact Guest.startedAt_le_reportsAt reports
    · show fleet.now ≤ guest.startedAt + _
      rw [begun]
      exact Nat.le_add_right _ _
    · show fleet.now ≤ ending
      rcases Guest.endsAt_eq_some ends with ⟨delay, -, rfl⟩ | ⟨halted, delay, asking, -⟩
      · rw [begun]
        exact Nat.le_add_right _ _
      · rw [free] at asking
        cases asking
  · rw [Daemon.handOver_of_untold untold] at rule
    refine keeps_of_record { boot with request := .abandoned } found rule rfl rfl tokens
      manned.isMarked
      (.abandoned guest _ ⟨manned.running, manned.pid, manned.cancelled⟩ rfl race reaper signal ?_
        (free.trans nobody.symm) alive recorded shows silent)
    show clockEnd ≤ guest.startedAt + _
    rw [begun]
    exact Nat.le_of_not_lt fun told =>
      Int.not_lt.mpr untold ((told_iff_lt_clockEnd _ _).mpr told)

/-! ### The reaper -/

/-- The reaper moves on and leaves everything to the race but the record, and an outcome that is
still open when the record is gone. -/
def Reaps (fleet : Fleet) (serial : Nat) (boot : Boot) (guest : Guest) (signal : BootSignal)
    (event : Event) : Prop :=
  ∃ ended record,
    (fleet.happen serial boot event).daemon.boots[serial]? = some boot.reaped ∧
    (fleet.happen serial boot event).outlook serial boot.reaped =
      { (fleet.outlook serial boot).move boot.reaped with
        guest := some { guest with endedAt := ended }, record } ∧
    ((fleet.happen serial boot event).outlook serial boot.reaped).Attended
      { guest with endedAt := ended } signal

/-- The runner ends. -/
theorem reaps_exit (found : fleet.daemon.boots[serial]? = some boot)
    (manned : (fleet.outlook serial boot).IsManned guest) (watching : boot.reaper = .watching)
    {vm : Vm} (entered : (fleet.outlook serial boot).record = some vm)
    (shows : guest.Shows vm signal) (ends : guest.endsAt = some fleet.now) :
    Reaps fleet serial boot guest signal (.exit serial) := by
  have running : fleet.guest? serial = some guest := manned.running
  have reaped : boot.reaped = { boot with reaper := .exited } := by
    simp [Boot.reaped, watching, ReaperPhase.next]
  have rule := Daemon.Rule.exit found watching
  have noted : (fleet.noted serial boot (.exit serial)).guest? serial =
      some { guest with endedAt := some fleet.now } := by
    refine (guest?_noteExit fleet serial serial).trans ?_
    rw [running, Option.map_some, if_pos rfl]
  have outlook := outlook_happen_put (Daemon.step?_of_rule rule) found rfl
  rw [noted] at outlook
  have still : { guest with endedAt := some fleet.now }.noteHalt fleet.now
      (fleet.outlook serial boot).cancelled = { guest with endedAt := some fleet.now } :=
    Guest.noteHalt_eq manned.cancelled
  have moved : (fleet.happen serial boot (.exit serial)).outlook serial boot.reaped =
      { (fleet.outlook serial boot).move boot.reaped with
        guest := some { guest with endedAt := some fleet.now }
        record := (fleet.outlook serial boot).record } := by
    rw [reaped, outlook]
    exact congrArg (fun guest => Outlook.mk _ _ _ (some guest) _ _ _) still
  refine ⟨some fleet.now, (fleet.outlook serial boot).record, ?_, moved, ?_⟩
  · rw [boots_happen rule, reaped]
    show (fleet.daemon.boots.set serial _)[serial]? = _
    rw [Daemon.boots_set found, if_pos rfl]
  · rw [moved, reaped]
    exact .exited vm rfl entered shows rfl ends

/-- The record is taken out. -/
theorem reaps_deregister (found : fleet.daemon.boots[serial]? = some boot)
    (manned : (fleet.outlook serial boot).IsManned guest) (exited : boot.reaper = .exited)
    (ended : guest.endedAt = some fleet.now) (ends : guest.endsAt = some fleet.now) :
    Reaps fleet serial boot guest signal (.deregister serial) := by
  have reaped : boot.reaped = { boot with reaper := .deregistered } := by
    simp [Boot.reaped, exited, ReaperPhase.next]
  obtain ⟨present, moved⟩ := happen_of_record { boot with reaper := .deregistered } found
    (.deregister found exited) rfl rfl rfl manned.isMarked
  have gone : (fleet.daemon.deregister serial boot).record serial
      { boot with reaper := .deregistered } = none := by
    refine (Registry.entryOf_remove _ _ _ _).trans ?_
    rw [if_pos rfl]
  rw [gone, ← reaped] at moved
  have same : (fleet.happen serial boot (.deregister serial)).outlook serial boot.reaped =
      { (fleet.outlook serial boot).move boot.reaped with guest := some guest, record := none } :=
    moved.trans (congrArg ({ · with record := none }) (Outlook.move_with_guest manned.running))
  refine ⟨guest.endedAt, none, reaped ▸ present, same, ?_⟩
  rw [same, reaped]
  exact .leaving (.inl rfl) rfl ended ends

/-- The reaper moves on when the record is gone already. -/
theorem reaps_of_move (found : fleet.daemon.boots[serial]? = some boot)
    (manned : (fleet.outlook serial boot).IsManned guest)
    (rule : Daemon.Rule fleet.daemon event next)
    (boots : next.boots = fleet.daemon.boots.set serial boot.reaped)
    (unnoted : (fleet.noted serial boot event).guest? serial = fleet.guest? serial)
    (registry : next.shared.registry = fleet.daemon.shared.registry)
    (attended : ((fleet.outlook serial boot).move boot.reaped).Attended guest signal) :
    Reaps fleet serial boot guest signal event := by
  obtain ⟨present, moved⟩ :=
    happen_of_move boot.reaped found rule boots unnoted registry rfl manned.isMarked
  refine ⟨guest.endedAt, _, present, moved.trans (Outlook.move_with_guest manned.running), ?_⟩
  rw [moved]
  exact attended

/-- Whatever is due to the reaper moves it on. It takes the record out at the moment at which the
runner ends. -/
theorem reaps_of_reaperEvent? (found : fleet.daemon.boots[serial]? = some boot)
    (manned : (fleet.outlook serial boot).IsManned guest)
    (attended : (fleet.outlook serial boot).Attended guest signal)
    (due : fleet.reaperEvent? serial boot = some event) :
    Reaps fleet serial boot guest signal event := by
  have running : fleet.guest? serial = some guest := manned.running
  simp only [reaperEvent?, running, Option.bind_eq_bind, Option.bind_some] at due
  cases attended with
  | watching vm phase entered shows alive ahead =>
    have watching : boot.reaper = .watching := phase
    simp only [watching] at due
    split at due
    · rename_i come
      obtain rfl := Option.some.inj due
      obtain ⟨ending, ends, come⟩ := reached_iff.mp come
      obtain rfl : ending = fleet.now := Nat.le_antisymm come (ahead ending ends)
      exact reaps_exit found manned watching entered shows ends
    · cases due
  | exited vm phase entered shows ended ends =>
    have exited : boot.reaper = .exited := phase
    simp only [exited] at due
    obtain rfl := Option.some.inj due
    exact reaps_deregister found manned exited ended ends
  | leaving phase gone ended ends =>
    rcases phase with phase | phase
    · have deregistered : boot.reaper = .deregistered := phase
      have reaped : boot.reaped = { boot with
          reaper := .settled, signal := (boot.signal.settle .terminatedEarly).1 } := by
        simp [Boot.reaped, deregistered, ReaperPhase.next]
      simp only [deregistered] at due
      obtain rfl := Option.some.inj due
      refine reaps_of_move found manned (.settleExit found deregistered) ?_ rfl rfl ?_
      · rw [reaped]
        rfl
      · exact .leaving (.inr (by rw [reaped]; rfl)) gone ended ends
    · have settled : boot.reaper = .settled := phase
      have reaped : boot.reaped = { boot with reaper := .grace } := by
        simp [Boot.reaped, settled, ReaperPhase.next]
      simp only [settled] at due
      obtain rfl := Option.some.inj due
      refine reaps_of_move found manned (.clearConsole found settled) ?_ rfl rfl ?_
      · rw [reaped]
        rfl
      · exact .left fleet.now (.inl (by rw [reaped]; rfl)) gone ended ends (Nat.le_refl _)
  | left ending phase gone ended ends past =>
    rcases phase with phase | phase
    · have grace : boot.reaper = .grace := phase
      have reaped : boot.reaped = { boot with reaper := .finished } := by
        simp [Boot.reaped, grace, ReaperPhase.next]
      simp only [grace] at due
      split at due
      · obtain rfl := Option.some.inj due
        refine reaps_of_move found manned (.finish found grace) ?_ rfl rfl ?_
        · rw [reaped]
          rfl
        · exact .left ending (.inr (by rw [reaped]; rfl)) gone ended ends past
      · cases due
    · have finished : boot.reaper = .finished := phase
      simp only [finished] at due
      cases due

end Fleet

end Rehearsal

end VmFleet
