/-
This file proves that whatever is due to a request leads it from one standing to
another. The proof goes standing by standing: where a request stands decides which
event is due to it, so each standing has only a few events to answer for. Of the
address, the deadline and the end of the runner the first that is noticed settles the
outcome, and what comes later only finishes what was begun.
-/

import VmFleet.Proofs.Rehearsal.Happening

namespace VmFleet.Rehearsal.Fleet

variable {fleet : Fleet} {serial : Nat} {boot : Boot} {event : Event}
variable {asked : Option Nat} {guest : Guest}

/-! ### A boot whose outcome is open -/

/-- A race that waits hears the address, strikes at the deadline, falls silent, or has nothing
to do because the address and the deadline are still to come. -/
theorem raceEvent?_of_isOpen (running : fleet.guest? serial = some guest)
    (opened : (fleet.outlook serial boot).IsOpen guest) (signal : boot.signal = .pending) :
    (fleet.raceEvent? serial boot = some (.hear serial guest.address) ∧
      boot.race = .listening ∧ guest.reportsAt = some fleet.now) ∨
    (fleet.raceEvent? serial boot = some (.strike serial) ∧
      fleet.now = (fleet.outlook serial boot).deadline guest ∧
      ∀ report, guest.reportsAt = some report → fleet.now < report) ∨
    (fleet.raceEvent? serial boot = some (.fallSilent serial) ∧
      boot.race = .listening ∧ guest.reportsAt = none) ∨
    (fleet.raceEvent? serial boot = none ∧
      fleet.now < (fleet.outlook serial boot).deadline guest ∧
      ∀ report, guest.reportsAt = some report → fleet.now < report) := by
  have soon : fleet.now ≤ (fleet.outlook serial boot).deadline guest := opened.deadline
  have struck : fleet.reached (some (fleet.deadline guest)) = true ↔
      fleet.now = (fleet.outlook serial boot).deadline guest := by
    rw [reached_iff]
    constructor
    · rintro ⟨time, same, come⟩
      obtain rfl := Option.some.inj same
      exact Nat.le_antisymm soon come
    · intro now
      exact ⟨_, rfl, Nat.le_of_eq now.symm⟩
  simp only [raceEvent?, running, Option.bind_eq_bind, Option.bind_some, signal,
    BootSignal.isPending, Bool.not_true, Bool.false_eq_true, if_false]
  rcases opened.race with race | race
  · have listening : boot.race = .listening := race
    simp only [listening]
    by_cases report : fleet.reached guest.reportsAt = true
    · obtain ⟨time, reports, come⟩ := reached_iff.mp report
      obtain rfl : time = fleet.now := Nat.le_antisymm come (opened.report time reports).2
      exact .inl ⟨by rw [if_pos report], trivial, reports⟩
    · rw [if_neg report]
      have ahead : ∀ report, guest.reportsAt = some report → fleet.now < report :=
        fun _ => not_reached report
      by_cases late : fleet.reached (some (fleet.deadline guest)) = true
      · exact .inr (.inl ⟨by rw [if_pos late], struck.mp late, ahead⟩)
      · rw [if_neg late]
        by_cases silence : fleet.reached guest.silentAt = true
        · refine .inr (.inr (.inl ⟨by rw [if_pos silence], trivial, ?_⟩))
          obtain ⟨time, silent, come⟩ := reached_iff.mp silence
          -- a runner that is silent by now would have reported before now
          refine Option.eq_none_iff_forall_ne_some.mpr fun report reports => ?_
          have before := Guest.reportsAt_lt_silentAt reports silent
          have after := ahead report reports
          omega
        · refine .inr (.inr (.inr ⟨by rw [if_neg silence], ?_, ahead⟩))
          exact Nat.lt_of_le_of_ne soon fun now => late (struck.mpr now)
  · have deaf : boot.race = .deaf := race
    have never : ∀ report, guest.reportsAt = some report → fleet.now < report := by
      intro report reports
      have listening : boot.race = .listening := (opened.report report reports).1
      rw [deaf] at listening
      cases listening
    simp only [deaf]
    by_cases late : fleet.reached (some (fleet.deadline guest)) = true
    · exact .inr (.inl ⟨by rw [if_pos late], struck.mp late, never⟩)
    · refine .inr (.inr (.inr ⟨by rw [if_neg late], ?_, never⟩))
      exact Nat.lt_of_le_of_ne soon fun now => late (struck.mpr now)

/-- The reaper moves on while nothing else has come. Its settlement is the first, so the end of the
runner decides. -/
theorem keeps_quiet_of_reaper (found : fleet.daemon.boots[serial]? = some boot)
    (pending : (fleet.outlook serial boot).IsPending guest asked)
    (opened : (fleet.outlook serial boot).IsOpen guest)
    (attended : (fleet.outlook serial boot).Attended guest .pending)
    (stays : boot.reaper = .watching ∨ boot.reaper = .exited ∨ boot.reaper = .deregistered)
    (ahead : fleet.now < (fleet.outlook serial boot).deadline guest)
    (report : ∀ report, guest.reportsAt = some report → fleet.now < report)
    (due : fleet.reaperEvent? serial boot = some event) : Keeps asked fleet serial boot event := by
  have waits : boot.request = .waiting := pending.request
  have signal : boot.signal = .pending := pending.signal
  obtain ⟨ended, record, present, moved, after⟩ :=
    reaps_of_reaperEvent? found pending.manned attended due
  refine ⟨boot.reaped, present, ?_⟩
  rw [moved] at after ⊢
  by_cases removed : boot.reaper = .deregistered
  · have reaped : boot.reaped = { boot with reaper := .settled, signal := .terminatedEarly } := by
      simp [Boot.reaped, removed, signal, BootSignal.settle, BootSignal.isPending,
        ReaperPhase.next]
    have settled : boot.reaped.reaper = .settled := by rw [reaped]
    obtain ⟨gone, ends⟩ := after.gone settled .terminatedEarly
    refine .unnoticed _ ⟨rfl, pending.manned.pid, pending.manned.cancelled⟩ ?_ settled ?_
      ⟨ends, ahead, report⟩ gone (.soon ?_ ?_ rfl) pending.halted
    · exact opened.race
    · exact congrArg Boot.signal reaped
    · exact waits
    · exact (Outlook.told_of_unanswered (by rw [reaped, waits]; rfl) _).trans pending.silent
  · have reaped : boot.reaped = { boot with reaper := boot.reaper.next } := by
      simp [Boot.reaped, removed]
    refine .quiet _ ⟨⟨rfl, pending.manned.pid, pending.manned.cancelled⟩, waits, ?_,
      pending.halted, ?_⟩ ⟨opened.race, opened.report, opened.deadline⟩ after ?_
      fun _ => ⟨ahead, report⟩
    · rw [reaped]
      exact signal
    · exact (Outlook.told_of_unanswered (by rw [reaped, waits]; rfl) _).trans pending.silent
    · rw [reaped]
      show boot.reaper.next = _ ∨ boot.reaper.next = _ ∨ boot.reaper.next = _
      rcases stays with watching | exited | deregistered
      · exact .inr (.inl (by rw [watching]; rfl))
      · exact .inr (.inr (by rw [exited]; rfl))
      · exact absurd deregistered removed

/-- The address, the deadline or silence is noticed before the end of the runner at the same
instant. -/
theorem keeps_quiet (found : fleet.daemon.boots[serial]? = some boot)
    (pending : (fleet.outlook serial boot).IsPending guest asked)
    (opened : (fleet.outlook serial boot).IsOpen guest)
    (attended : (fleet.outlook serial boot).Attended guest .pending)
    (stays : boot.reaper = .watching ∨ boot.reaper = .exited ∨ boot.reaper = .deregistered)
    (first : boot.reaper ≠ .watching → fleet.now < (fleet.outlook serial boot).deadline guest ∧
      ∀ report, guest.reportsAt = some report → fleet.now < report)
    (due : fleet.next? serial boot = some event) : Keeps asked fleet serial boot event := by
  have waits : boot.request = .waiting := pending.request
  have signal : boot.signal = .pending := pending.signal
  have marked := pending.manned.isMarked
  have request : fleet.requestEvent? serial boot = none := by
    simp [requestEvent?, waits, signal, BootSignal.isPending]
  have onward : ∀ race,
      ((fleet.outlook serial boot).move { boot with race }).IsPending guest asked :=
    fun race => pending.move rfl rfl rfl
  have alive : ∀ {time}, (boot.reaper ≠ .watching → fleet.now < time) → fleet.now = time →
      boot.reaper = .watching := by
    intro time first now
    by_cases watching : boot.reaper = .watching
    · exact watching
    · exact absurd now (Nat.ne_of_lt (first watching))
  have race := raceEvent?_of_isOpen pending.manned.running opened signal
  unfold next? at due
  rw [request, Option.none_or] at due
  rcases race with ⟨news, listening, report⟩ | ⟨news, now, report⟩ | ⟨news, listening, never⟩ |
    ⟨news, ahead, report⟩
  · rw [news, Option.some_or] at due
    obtain rfl := Option.some.inj due
    have watching := alive (fun gone => (first gone).2 _ report) rfl
    exact keeps_of_move { boot with race := .heard guest.address } found (.hear _ found listening)
      rfl rfl rfl rfl marked
      (.heard guest (onward _) rfl ⟨watching, report, opened.deadline⟩ (attended.move rfl))
  · rw [news, Option.some_or] at due
    obtain rfl := Option.some.inj due
    have watching := alive (fun gone => (first gone).1) now
    exact keeps_of_move { boot with race := .struck } found (.strike found opened.race)
      rfl rfl rfl rfl marked
      (.struck guest (onward _) rfl ⟨watching, now, report⟩ (attended.move rfl))
  · rw [news, Option.some_or] at due
    obtain rfl := Option.some.inj due
    refine keeps_of_move { boot with race := .deaf } found (.fallSilent found listening)
      rfl rfl rfl rfl marked
      (.quiet guest (onward _) ⟨.inr rfl, fun report reports => ?_, opened.deadline⟩
        (attended.move rfl) stays first)
    rw [never] at reports
    cases reports
  · rw [news, Option.none_or] at due
    exact keeps_quiet_of_reaper found pending opened attended stays ahead report due

/-- The record of a request whose runner is alive, after it was changed in place. -/
theorem entryOf_change {registry : Registry} {vm : Vm} {uuid : String}
    (entered : registry.entryOf uuid serial = some vm) (change : Vm → Vm) (state : VmState) :
    ((registry.update uuid change).setState uuid state).entryOf uuid serial =
      some ((change vm).moveTo state) := by
  rw [Registry.entryOf_setState, if_pos rfl, Registry.entryOf_update, if_pos rfl, entered]
  rfl

/-- The address is recorded, and the machine moves to running if it was not asked to end. -/
theorem keeps_heard (found : fleet.daemon.boots[serial]? = some boot)
    (pending : (fleet.outlook serial boot).IsPending guest asked)
    (race : boot.race = .heard guest.address) (report : (fleet.outlook serial boot).HasReport guest)
    (attended : (fleet.outlook serial boot).Attended guest .pending)
    (due : fleet.next? serial boot = some event) : Keeps asked fleet serial boot event := by
  have waits : boot.request = .waiting := pending.request
  have signal : boot.signal = .pending := pending.signal
  have running : fleet.guest? serial = some guest := pending.manned.running
  obtain rfl : event = .recordAddress serial := by
    simpa [next?, requestEvent?, raceEvent?, waits, signal, BootSignal.isPending, running, race,
      eq_comm] using due
  obtain ⟨vm, entered, ⟨-, -, state⟩, alive, ahead⟩ := attended.change report.watching
  have after := entryOf_change entered
    (fun vm => { vm with publicIp := guest.address, pid := boot.pid }) .running
  have shows : guest.Shows
      (Vm.moveTo { vm with publicIp := guest.address, pid := boot.pid } .running)
      (.ready (Vm.moveTo { vm with publicIp := guest.address, pid := boot.pid } .running)) := by
    refine ⟨?_, ?_, ?_⟩
    · rw [Vm.pid_moveTo]
      exact pending.manned.pid
    · rw [Vm.publicIp_moveTo]
    · rw [Vm.state_moveTo]
      show (if vm.state.canMove .running then _ else vm.state) = _
      rw [state]
      cases guest.haltedAt <;> rfl
  have kept : (fleet.daemon.recordAddress serial boot guest.address).shared.registry.find?
      boot.vm.uuid =
        some (Vm.moveTo { vm with publicIp := guest.address, pid := boot.pid } .running) :=
    Registry.find?_of_entryOf after
  refine keeps_of_record _ found (.recordAddress found race) rfl rfl
    (Registry.isCancelled_congr (Registry.cancelled_setState _ _ _) _) pending.manned.isMarked
    (.recorded guest _ ?_ (congrArg RacePhase.recorded kept)
      ⟨report.watching, report.report, report.deadline⟩ after
      (.watching _ report.watching after shows alive ahead))
  exact ⟨⟨running, pending.manned.pid, pending.manned.cancelled⟩, waits, signal, pending.halted,
    (Outlook.told_of_unanswered (by rw [waits]; rfl) _).trans pending.silent⟩

/-- The recorded machine settles the outcome. -/
theorem keeps_recorded (found : fleet.daemon.boots[serial]? = some boot) {vm : Vm}
    (pending : (fleet.outlook serial boot).IsPending guest asked)
    (race : boot.race = .recorded (some vm)) (report : (fleet.outlook serial boot).HasReport guest)
    (entered : (fleet.outlook serial boot).record = some vm)
    (attended : (fleet.outlook serial boot).Attended guest (.ready vm))
    (due : fleet.next? serial boot = some event) : Keeps asked fleet serial boot event := by
  have waits : boot.request = .waiting := pending.request
  have signal : boot.signal = .pending := pending.signal
  have running : fleet.guest? serial = some guest := pending.manned.running
  obtain rfl : event = .settleAddress serial := by
    simpa [next?, requestEvent?, raceEvent?, waits, signal, BootSignal.isPending, running, race,
      eq_comm] using due
  obtain ⟨other, same, ⟨pid, address, -⟩, -, ahead⟩ := attended.change report.watching
  obtain rfl := Option.some.inj (entered.symm.trans same)
  have settled : (boot.signal.settle (.ready vm)).1 = .ready vm := by
    rw [signal]
    rfl
  refine keeps_of_move { boot with race := .finished, signal := .ready vm } found
    (.settleAddress found race) ?_ rfl rfl rfl pending.manned.isMarked
    (.decided guest fleet.now ⟨running, pending.manned.pid, pending.manned.cancelled⟩ rfl
      ⟨⟨address, pid⟩, report.report, report.deadline, ahead⟩ (attended.move rfl)
      (.soon waits ?_ rfl) pending.halted (Nat.le_refl _))
  · simp only [Daemon.settleAddress, settled, Daemon.put]
  · exact (Outlook.told_of_unanswered (by rw [waits]; rfl) _).trans pending.silent

/-- The deadline settles the outcome. -/
theorem keeps_struck (found : fleet.daemon.boots[serial]? = some boot)
    (pending : (fleet.outlook serial boot).IsPending guest asked) (race : boot.race = .struck)
    (late : (fleet.outlook serial boot).IsLate guest)
    (attended : (fleet.outlook serial boot).Attended guest .pending)
    (due : fleet.next? serial boot = some event) : Keeps asked fleet serial boot event := by
  have waits : boot.request = .waiting := pending.request
  have signal : boot.signal = .pending := pending.signal
  have running : fleet.guest? serial = some guest := pending.manned.running
  obtain rfl : event = .settleDeadline serial := by
    simpa [next?, requestEvent?, raceEvent?, waits, signal, BootSignal.isPending, running, race,
      eq_comm] using due
  refine keeps_of_move { boot with race := .lapsed, signal := .timedOut } found
    (.settleDeadline found race) ?_ rfl rfl rfl pending.manned.isMarked
    (.lapsed guest ⟨running, pending.manned.pid, pending.manned.cancelled⟩ rfl rfl
      ⟨late.watching, late.now, late.report⟩ (attended.move rfl) (.soon waits ?_ rfl)
      pending.halted)
  · simp [Daemon.settleDeadline, signal, BootSignal.settle, BootSignal.isPending, Daemon.put]
  · exact (Outlook.told_of_unanswered (by rw [waits]; rfl) _).trans pending.silent

/-! ### A boot whose outcome is settled -/

theorem eq_answer (waits : boot.request = .waiting) (settled : boot.signal.isPending = false)
    (due : fleet.next? serial boot = some event) : event = .answer serial := by
  simpa [next?, requestEvent?, waits, settled, eq_comm] using due

/-- The request after it took its answer. -/
def answered (fleet : Fleet) (boot : Boot) : Boot :=
  { boot with
    request := .answered (Boot.answerOf boot.vm.name fleet.daemon.setup.settings.bootTimeout
      boot.signal) }

theorem keeps_of_answer (found : fleet.daemon.boots[serial]? = some boot)
    (waits : boot.request = .waiting) (settled : boot.signal.isPending = false)
    (marked : (fleet.outlook serial boot).IsMarked)
    (due : fleet.next? serial boot = some event)
    (standing : Standing asked ((fleet.outlook serial boot).move (fleet.answered boot))) :
    Keeps asked fleet serial boot event := by
  obtain rfl := eq_answer waits settled due
  exact keeps_of_move (fleet.answered boot) found (.answer found waits settled) rfl rfl rfl rfl
    marked standing

/-- The machine is shown as failed and asked to end, if it was not asked before. -/
theorem keeps_markFailed (found : fleet.daemon.boots[serial]? = some boot)
    (manned : (fleet.outlook serial boot).IsManned guest) (race : boot.race = .lapsed)
    (signal : boot.signal = .timedOut) (late : (fleet.outlook serial boot).IsLate guest) {vm : Vm}
    (entered : (fleet.outlook serial boot).record = some vm) (shows : guest.Shows vm .pending)
    (alive : guest.endedAt = none)
    (ahead : ∀ ending, guest.endsAt = some ending → fleet.now ≤ ending)
    (replied : ((fleet.outlook serial boot).move { boot with race := .finished }).Replied fleet.now)
    (halted : guest.haltedAt = asked) (asking : ∀ time, asked = some time → time ≤ fleet.now) :
    Keeps asked fleet serial boot (.markFailed serial) := by
  have cancelled : (fleet.daemon.markFailed serial boot).shared.registry.isCancelled serial =
      true := by
    refine (Registry.isCancelled_cancel _ _ _).trans ?_
    rw [beq_self_eq_true, Bool.or_true]
  have after : (fleet.daemon.markFailed serial boot).record serial
      { boot with race := .finished } = some (vm.moveTo .failed) := by
    refine (Registry.entryOf_cancel _ _ _ _).trans
      ((Registry.entryOf_setState _ _ _ _ _).trans ?_)
    rw [if_pos rfl]
    exact congrArg (Option.map (·.moveTo .failed)) entered
  have present : ((fleet.outlook serial boot).shift { boot with race := .finished }
      (fleet.guest? serial) (some (vm.moveTo .failed)) true).guest =
        some (guest.halt fleet.now) := by
    rw [show fleet.guest? serial = some guest from manned.running, ← Guest.noteHalt_true]
    rfl
  have beyond : ∀ ending, (guest.halt fleet.now).endsAt = some ending → fleet.now ≤ ending :=
    fun _ => Guest.endsAt_halt ahead
  have first : some (guest.haltedAt.getD fleet.now) =
      earliest [asked, some ((fleet.outlook serial boot).deadline guest)] := by
    rw [← show fleet.now = _ from late.now, earliest_pair asking, halted]
  refine keeps_of_shift { boot with race := .finished } (.markFailed found race) ?_ ?_
  · show (fleet.daemon.boots.set serial _)[serial]? = _
    rw [Daemon.boots_set found, if_pos rfl]
  · rw [cancelled, after]
    refine .decided (guest.halt fleet.now) fleet.now ⟨present, manned.pid, rfl⟩ rfl ?_ ?_ ?_ ?_
      (Nat.le_refl _)
    · show Guest.Settles _ _ boot.signal _
      rw [signal]
      refine ⟨late.now, fun report reports => ?_, fun ending ends => ?_⟩
      · exact late.now ▸ late.report report reports
      · exact late.now ▸ beyond ending ends
    · show Outlook.Attended _ _ boot.signal
      rw [signal]
      exact .watching _ late.watching rfl (shows.fail _) alive beyond
    · cases replied with
      | soon phase silent now => exact .soon phase silent now
      | done phase told => exact .done phase told
    · show some (guest.haltedAt.getD fleet.now) = Guest.haltCause asked _ boot.signal
      rw [signal]
      exact first

/-- The request takes its answer, and then the machine is shown as failed. -/
theorem keeps_lapsed (found : fleet.daemon.boots[serial]? = some boot)
    (manned : (fleet.outlook serial boot).IsManned guest) (race : boot.race = .lapsed)
    (signal : boot.signal = .timedOut) (late : (fleet.outlook serial boot).IsLate guest)
    (attended : (fleet.outlook serial boot).Attended guest .pending)
    (replied : (fleet.outlook serial boot).Replied fleet.now) (halted : guest.haltedAt = asked)
    (asking : ∀ time, asked = some time → time ≤ fleet.now)
    (due : fleet.next? serial boot = some event) : Keeps asked fleet serial boot event := by
  have running : fleet.guest? serial = some guest := manned.running
  cases replied with
  | soon phase silent now =>
    exact keeps_of_answer found phase (by rw [signal]; rfl) manned.isMarked due
      (.lapsed guest ⟨running, manned.pid, manned.cancelled⟩ race signal
        ⟨late.watching, late.now, late.report⟩ (attended.move rfl) (.answer silent rfl rfl) halted)
  | done phase told =>
    have answered : boot.request = _ := phase
    obtain rfl : event = .markFailed serial := by
      simpa [next?, requestEvent?, raceEvent?, answered, running, race, eq_comm] using due
    obtain ⟨vm, entered, shows, alive, ahead⟩ := attended.change late.watching
    exact keeps_markFailed found manned race signal late entered shows alive ahead
      ((Outlook.Replied.done phase told).move rfl rfl rfl) halted asking

/-- The race notices that the end of the runner has settled the outcome. -/
theorem keeps_unnoticed (found : fleet.daemon.boots[serial]? = some boot)
    (manned : (fleet.outlook serial boot).IsManned guest) (race : boot.race.IsWaiting)
    (reaper : boot.reaper = .settled) (signal : boot.signal = .terminatedEarly)
    (settles : guest.Settles ((fleet.outlook serial boot).deadline guest) .terminatedEarly
      fleet.now)
    (attended : (fleet.outlook serial boot).Attended guest .terminatedEarly)
    (replied : (fleet.outlook serial boot).Replied fleet.now) (halted : guest.haltedAt = asked)
    (due : fleet.next? serial boot = some event) : Keeps asked fleet serial boot event := by
  have running : fleet.guest? serial = some guest := manned.running
  have settled : boot.signal.isPending = false := by
    rw [signal]
    rfl
  cases replied with
  | soon phase silent now =>
    exact keeps_of_answer found phase settled manned.isMarked due
      (.unnoticed guest ⟨running, manned.pid, manned.cancelled⟩ race reaper signal settles
        (attended.move rfl) (.answer silent rfl rfl) halted)
  | done phase told =>
    have answered : boot.request = _ := phase
    obtain rfl : event = .notice serial := by
      rcases race with race | race <;>
        simpa [next?, requestEvent?, raceEvent?, answered, running, race, settled, eq_comm]
          using due
    have replied : ((fleet.outlook serial boot).move { boot with race := .finished }).Replied
        fleet.now := (Outlook.Replied.done phase told).move rfl rfl rfl
    refine keeps_of_move { boot with race := .finished } found (.notice found race settled)
      rfl rfl rfl rfl manned.isMarked
      (.decided guest fleet.now ⟨running, manned.pid, manned.cancelled⟩ rfl ?_ ?_ replied ?_
        (Nat.le_refl _))
    · show guest.Settles _ boot.signal _
      rw [signal]
      exact settles
    · show Outlook.Attended _ guest boot.signal
      rw [signal]
      exact attended.move rfl
    · show guest.haltedAt = Guest.haltCause asked _ boot.signal
      rw [signal]
      exact halted

/-- Once the outcome is settled, the request takes its answer and the reaper ends its work. -/
theorem keeps_decided (found : fleet.daemon.boots[serial]? = some boot) {time : Nat}
    (manned : (fleet.outlook serial boot).IsManned guest) (race : boot.race = .finished)
    (settles : guest.Settles ((fleet.outlook serial boot).deadline guest) boot.signal time)
    (attended : (fleet.outlook serial boot).Attended guest boot.signal)
    (replied : (fleet.outlook serial boot).Replied time)
    (halted : guest.haltedAt =
      Guest.haltCause asked ((fleet.outlook serial boot).deadline guest) boot.signal)
    (past : time ≤ fleet.now)
    (due : fleet.next? serial boot = some event) : Keeps asked fleet serial boot event := by
  have running : fleet.guest? serial = some guest := manned.running
  have settled : boot.signal.isPending = false := by
    cases signal : boot.signal with
    | pending =>
      rw [signal] at settles
      exact settles.elim
    | _ => rfl
  cases replied with
  | soon phase silent now =>
    exact keeps_of_answer found phase settled manned.isMarked due
      (.decided guest time ⟨running, manned.pid, manned.cancelled⟩ race settles
        (attended.move rfl) (.answer silent now rfl) halted past)
  | done phase told =>
    have answered : boot.request = _ := phase
    have idle : fleet.requestEvent? serial boot = none := by
      simp [requestEvent?, answered]
    have still : fleet.raceEvent? serial boot = none := by
      simp [raceEvent?, running, race]
    unfold next? at due
    rw [idle, still, Option.none_or, Option.none_or] at due
    obtain ⟨ended, record, present, moved, after⟩ := reaps_of_reaperEvent? found manned attended due
    have signal : boot.reaped.signal = boot.signal := by
      unfold Boot.reaped BootSignal.settle
      dsimp only
      rw [settled]
      split <;> rfl
    refine ⟨boot.reaped, present, ?_⟩
    rw [moved] at after ⊢
    have replied : ((fleet.outlook serial boot).move boot.reaped).Replied time :=
      (Outlook.Replied.done phase told).move rfl signal rfl
    refine .decided _ time ⟨rfl, manned.pid, manned.cancelled⟩ race ?_ ?_ ?_ ?_ past
    · show Guest.Settles _ _ boot.reaped.signal time
      rw [signal]
      exact settles
    · show Outlook.Attended _ _ boot.reaped.signal
      rw [signal]
      exact after
    · cases replied with
      | soon phase silent now => exact .soon phase silent now
      | done phase told => exact .done phase told
    · show guest.haltedAt = Guest.haltCause asked _ boot.reaped.signal
      rw [signal]
      exact halted

/-! ### Every standing -/

/-- Whatever is due to a request leads it from one standing to another. -/
theorem keeps_of_standing (found : fleet.daemon.boots[serial]? = some boot)
    (standing : Standing asked (fleet.outlook serial boot))
    (asking : ∀ time, asked = some time → time ≤ fleet.now)
    (due : fleet.next? serial boot = some event) : Keeps asked fleet serial boot event := by
  cases standing with
  | arrived bare phase gone silent nobody =>
    exact keeps_arrived found bare phase gone silent nobody due
  | preparing vm bare phase entered address state silent nobody =>
    exact keeps_preparing found bare phase entered address state silent nobody due
  | refused outcome time bare phase gone told nobody =>
    have answered : boot.request = .answered outcome := phase
    have unmanned : fleet.guest? serial = none := bare.guest
    simp [next?, requestEvent?, raceEvent?, reaperEvent?, answered, unmanned] at due
  | unjudged bare phase =>
    have broken : boot.request = .unjudged := phase
    have unmanned : fleet.guest? serial = none := bare.guest
    simp [next?, requestEvent?, raceEvent?, reaperEvent?, broken, unmanned] at due
  | abandoned guest vm manned phase race reaper =>
    have broken : boot.request = .abandoned := phase
    have running : fleet.guest? serial = some guest := manned.running
    have idle : boot.race = .absent ∧ boot.reaper = .absent := ⟨race, reaper⟩
    simp [next?, requestEvent?, raceEvent?, reaperEvent?, broken, running, idle] at due
  | started guest vm manned phase race reaper signal begun free alive entered address state silent
      nobody =>
    exact keeps_started found manned phase race reaper signal begun free alive entered address
      state silent nobody due
  | quiet guest pending opened attended stays first =>
    exact keeps_quiet found pending opened attended stays first due
  | heard guest pending race report attended =>
    exact keeps_heard found pending race report attended due
  | recorded guest vm pending race report entered attended =>
    exact keeps_recorded found pending race report entered attended due
  | struck guest pending race late attended =>
    exact keeps_struck found pending race late attended due
  | lapsed guest manned race signal late attended replied halted =>
    exact keeps_lapsed found manned race signal late attended replied halted asking due
  | unnoticed guest manned race reaper signal settles attended replied halted =>
    exact keeps_unnoticed found manned race reaper signal settles attended replied halted due
  | decided guest time manned race settles attended replied halted past =>
    exact keeps_decided found manned race settles attended replied halted past due

end VmFleet.Rehearsal.Fleet
