/-
This file says where a request can stand in a rehearsal, and what is then true of its
runner, its record, its token and its answer. Before the machine is handed over the
request works alone. Then the boot is quiet until an address, the deadline or the end
of the runner comes; whichever is first decides the outcome, and its moment is the time
of the answer. The reaper goes its own way beside that and takes the record out at the
moment at which the runner ends. A request that broke off stays where it is: its sum was
not told and it has nothing, or its deadline was not told and its runner is left to itself.
-/

import VmFleet.Proofs.Rehearsal.Outlook

namespace VmFleet

/-- The state that a record shows while its request works alone. -/
def RequestPhase.shown? : RequestPhase → Option VmState
  | .reserved | .planned _ => some .reserved
  | .launching _ | .started => some .spawning
  | _ => none

/-- The machine of the request is admitted and its runner is not started yet. -/
def RequestPhase.isPreparing : RequestPhase → Bool
  | .reserved | .planned _ | .launching _ | .undoing _ => true
  | _ => false

/-- A request that prepares its machine works alone. -/
theorem RequestPhase.isAlone_of_isPreparing {phase : RequestPhase}
    (preparing : phase.isPreparing = true) : phase.isAlone = true := by
  cases phase <;> first | rfl | cases preparing

namespace Rehearsal

/-! ### Times that are told -/

/-- The end of all times on a clock in milliseconds. -/
def clockEnd : Nat :=
  1000 * Text.signedLimit

/-- A deadline is told exactly if it lies before the end of all times. -/
theorem told_iff_lt_clockEnd (now : Nat) (seconds : UInt64) :
    ((now / 1000 : Nat) : Int) + seconds.toNat < Config.timeLimit ↔
      now + Fleet.milliseconds seconds < clockEnd := by
  have limit : Text.signedLimit = 9223372036854775808 := rfl
  unfold Fleet.milliseconds clockEnd
  rw [Config.timeLimit_eq, limit]
  omega

/-! ### What the outcome of a boot says of the runner -/

namespace Guest

/-- An outcome settled at a time agrees with the moments of the runner. -/
def Settles (guest : Guest) (deadline : Nat) : BootSignal → Nat → Prop
  | .pending, _ => False
  | .ready vm, time =>
    (vm.publicIp = guest.address ∧ vm.pid = guest.pid) ∧ guest.reportsAt = some time ∧
      time ≤ deadline ∧ ∀ ending, guest.endsAt = some ending → time ≤ ending
  | .timedOut, time =>
    time = deadline ∧ (∀ report, guest.reportsAt = some report → deadline < report) ∧
      ∀ ending, guest.endsAt = some ending → deadline ≤ ending
  | .terminatedEarly, time =>
    guest.endsAt = some time ∧ time < deadline ∧
      ∀ report, guest.reportsAt = some report → time < report

/-- A record shows a runner whose boot has the given outcome. -/
def Shows (guest : Guest) (vm : Vm) : BootSignal → Prop
  | .pending =>
    vm.pid = guest.pid ∧ vm.publicIp = "" ∧
      vm.state = if guest.haltedAt.isSome then .halting else .awaitingAddress
  | .ready _ =>
    vm.pid = guest.pid ∧ vm.publicIp = guest.address ∧
      vm.state = if guest.haltedAt.isSome then .halting else .running
  | .timedOut =>
    vm.pid = guest.pid ∧ vm.publicIp = "" ∧ guest.haltedAt.isSome = true ∧
      (vm.state = .failed ∨ vm.state = .halting)
  | .terminatedEarly => False

/-- When a runner was asked to end: when somebody asked for it, and else at the deadline that
its boot missed. -/
def haltCause (asked : Option Nat) (deadline : Nat) : BootSignal → Option Nat
  | .timedOut => earliest [asked, some deadline]
  | _ => asked

theorem startedAt_le_reportsAt {guest : Guest} {report : Nat}
    (reports : guest.reportsAt = some report) : guest.startedAt ≤ report := by
  unfold reportsAt at reports
  split at reports
  · split at reports
    · cases reports
    · obtain rfl := Option.some.inj reports
      exact Nat.le_add_right _ _
  · obtain ⟨delay, -, rfl⟩ := Option.map_eq_some_iff.mp reports
    exact Nat.le_add_right _ _
  · cases reports

/-- A runner that falls silent by some time has reported by then, or never does. -/
theorem reportsAt_lt_silentAt {guest : Guest} {report silence : Nat}
    (reports : guest.reportsAt = some report) (silent : guest.silentAt = some silence) :
    report < silence := by
  obtain ⟨delay, falls, rfl⟩ := Option.map_eq_some_iff.mp silent
  unfold reportsAt at reports
  rw [falls] at reports
  split at reports
  · rename_i same
    obtain rfl := Option.some.inj same
    split at reports
    · cases reports
    · obtain rfl := Option.some.inj reports
      omega
  · rename_i same
    cases same
  · cases reports

/-- A runner ends on its own account or after it was asked to. -/
theorem endsAt_eq_some {guest : Guest} {ending : Nat} (ends : guest.endsAt = some ending) :
    (∃ delay, guest.script.endsAfter = some delay ∧ ending = guest.startedAt + delay) ∨
      ∃ halted delay, guest.haltedAt = some halted ∧ guest.script.haltDelay = some delay ∧
        ending = halted + delay := by
  have member := (earliest_eq_some_iff.mp ends).1
  simp only [List.mem_cons, List.not_mem_nil, or_false] at member
  rcases member with own | asked
  · obtain ⟨delay, after, rfl⟩ := Option.map_eq_some_iff.mp own.symm
    exact .inl ⟨delay, after, rfl⟩
  · obtain ⟨halted, at', heeds⟩ := Option.bind_eq_some_iff.mp asked.symm
    obtain ⟨delay, after, rfl⟩ := Option.map_eq_some_iff.mp heeds
    exact .inr ⟨halted, delay, at', after, rfl⟩

/-- The runner after it was asked to end now, if it was not asked before. -/
def halt (guest : Guest) (now : Nat) : Guest :=
  { guest with haltedAt := some (guest.haltedAt.getD now) }

theorem noteHalt_true (guest : Guest) (now : Nat) : guest.noteHalt now true = guest.halt now := by
  obtain ⟨serial, script, pid, startedAt, haltedAt, endedAt⟩ := guest
  cases haltedAt <;> rfl

/-- Asking a runner to end now brings its end no nearer than the present. -/
theorem endsAt_halt {guest : Guest} {now ending : Nat}
    (ahead : ∀ ending, guest.endsAt = some ending → now ≤ ending)
    (ends : (guest.halt now).endsAt = some ending) : now ≤ ending := by
  cases free : guest.haltedAt with
  | some halted =>
    have same : guest.halt now = guest := by
      unfold halt
      rw [free, Option.getD_some, ← free]
    exact ahead ending (same ▸ ends)
  | none =>
    rcases endsAt_eq_some ends with ⟨delay, after, rfl⟩ | ⟨halted, delay, asked, -, rfl⟩
    · refine ahead _ ?_
      unfold endsAt
      rw [free, show guest.script.endsAfter = some delay from after]
      rfl
    · obtain rfl : now = halted := by
        unfold halt at asked
        rw [free] at asked
        exact Option.some.inj asked
      exact Nat.le_add_right _ _

/-- A runner that is asked to end is shown as ending, if its boot has not failed already. -/
theorem Shows.halt {guest : Guest} {vm : Vm} {signal : BootSignal} (shows : guest.Shows vm signal)
    (now : Nat) : (guest.halt now).Shows (vm.moveTo .halting) signal := by
  cases signal with
  | pending | ready =>
    obtain ⟨pid, address, state⟩ := shows
    refine ⟨(vm.pid_moveTo _).trans pid, (vm.publicIp_moveTo _).trans address, ?_⟩
    rw [Vm.state_moveTo, state]
    cases guest.haltedAt <;> rfl
  | timedOut =>
    obtain ⟨pid, address, -, state⟩ := shows
    refine ⟨(vm.pid_moveTo _).trans pid, (vm.publicIp_moveTo _).trans address, rfl, .inr ?_⟩
    rw [Vm.state_moveTo]
    rcases state with state | state <;> rw [state] <;> rfl
  | terminatedEarly => exact shows.elim

/-- A runner that has missed its deadline is shown as failed, if it was not asked to end. -/
theorem Shows.fail {guest : Guest} {vm : Vm} (shows : guest.Shows vm .pending) (now : Nat) :
    (guest.halt now).Shows (vm.moveTo .failed) .timedOut := by
  obtain ⟨pid, address, state⟩ := shows
  refine ⟨(vm.pid_moveTo _).trans pid, (vm.publicIp_moveTo _).trans address, rfl, ?_⟩
  rw [Vm.state_moveTo, state]
  cases guest.haltedAt
  · exact .inl rfl
  · exact .inr rfl

/-- Asking a runner to end changes nothing about an outcome that is settled, as long as it runs. -/
theorem Settles.halt {guest : Guest} {vm : Vm} {signal : BootSignal} {deadline time now : Nat}
    (settles : guest.Settles deadline signal time) (shows : guest.Shows vm signal)
    (past : time ≤ now) (ahead : ∀ ending, guest.endsAt = some ending → now ≤ ending) :
    (guest.halt now).Settles deadline signal time := by
  have beyond : ∀ ending, (guest.halt now).endsAt = some ending → time ≤ ending :=
    fun ending ends => Nat.le_trans past (endsAt_halt ahead ends)
  cases signal with
  | pending => exact settles.elim
  | ready ready =>
    obtain ⟨said, reports, early, -⟩ := settles
    exact ⟨said, reports, early, beyond⟩
  | timedOut =>
    obtain ⟨rfl, report, -⟩ := settles
    exact ⟨rfl, report, beyond⟩
  | terminatedEarly => exact shows.elim

end Guest

/-! ### Where a request can stand -/

namespace Outlook

/-- No runner was started. -/
structure IsBare (outlook : Outlook) : Prop where
  guest : outlook.guest = none
  race : outlook.boot.race = .absent
  reaper : outlook.boot.reaper = .absent
  signal : outlook.boot.signal = .pending
  cancelled : outlook.cancelled = false

/-- A runner was started, and was asked to end exactly if its token is cancelled. -/
structure IsManned (outlook : Outlook) (guest : Guest) : Prop where
  running : outlook.guest = some guest
  pid : outlook.boot.pid = guest.pid
  cancelled : outlook.cancelled = guest.haltedAt.isSome

/-- What the reaper has made of the record, which shows the given outcome until it is gone. -/
inductive Attended (outlook : Outlook) (guest : Guest) (signal : BootSignal) : Prop
  | watching (vm : Vm) (phase : outlook.boot.reaper = .watching)
    (entered : outlook.record = some vm) (shows : guest.Shows vm signal)
    (alive : guest.endedAt = none)
    (ahead : ∀ ending, guest.endsAt = some ending → outlook.now ≤ ending)
  | exited (vm : Vm) (phase : outlook.boot.reaper = .exited)
    (entered : outlook.record = some vm) (shows : guest.Shows vm signal)
    (ended : guest.endedAt = some outlook.now) (ends : guest.endsAt = some outlook.now)
  | leaving (phase : outlook.boot.reaper = .deregistered ∨ outlook.boot.reaper = .settled)
    (gone : outlook.record = none)
    (ended : guest.endedAt = some outlook.now) (ends : guest.endsAt = some outlook.now)
  | left (ending : Nat) (phase : outlook.boot.reaper = .grace ∨ outlook.boot.reaper = .finished)
    (gone : outlook.record = none)
    (ended : guest.endedAt = some ending) (ends : guest.endsAt = some ending)
    (past : ending ≤ outlook.now)

/-- The outcome was settled at a time, and the request has its answer or gets it now. -/
inductive Replied (outlook : Outlook) (time : Nat) : Prop
  | soon (phase : outlook.boot.request = .waiting) (silent : outlook.answers = [])
    (now : outlook.now = time)
  | done
    (phase : outlook.boot.request = .answered
      (Boot.answerOf outlook.boot.vm.name outlook.bootTimeout outlook.boot.signal))
    (told : outlook.answers = [time])

/-- The race waits, and neither the address nor the deadline is past. -/
structure IsOpen (outlook : Outlook) (guest : Guest) : Prop where
  race : outlook.boot.race.IsWaiting
  report : ∀ report, guest.reportsAt = some report →
    outlook.boot.race = .listening ∧ outlook.now ≤ report
  deadline : outlook.now ≤ outlook.deadline guest

/-- The machine was handed over and the outcome is not settled yet. -/
structure IsPending (outlook : Outlook) (guest : Guest) (asked : Option Nat) : Prop where
  manned : outlook.IsManned guest
  request : outlook.boot.request = .waiting
  signal : outlook.boot.signal = .pending
  halted : guest.haltedAt = asked
  silent : outlook.answers = []

/-- An address was reported in time, just now. -/
structure HasReport (outlook : Outlook) (guest : Guest) : Prop where
  watching : outlook.boot.reaper = .watching
  report : guest.reportsAt = some outlook.now
  deadline : outlook.now ≤ outlook.deadline guest

/-- The deadline has come just now, with no address and the runner alive. -/
structure IsLate (outlook : Outlook) (guest : Guest) : Prop where
  watching : outlook.boot.reaper = .watching
  now : outlook.now = outlook.deadline guest
  report : ∀ report, guest.reportsAt = some report → outlook.now < report

end Outlook

/-- Where a request stands, if its runner was asked to end at a certain time. -/
inductive Standing (asked : Option Nat) (outlook : Outlook) : Prop
  /-- The request has just arrived. -/
  | arrived (bare : outlook.IsBare) (phase : outlook.boot.request = .arrived)
    (gone : outlook.record = none) (silent : outlook.answers = []) (nobody : asked = none)
  /-- The machine is admitted and its runner is not started yet. -/
  | preparing (vm : Vm) (bare : outlook.IsBare)
    (phase : outlook.boot.request.isPreparing = true) (entered : outlook.record = some vm)
    (address : vm.publicIp = "")
    (state : ∀ shown, outlook.boot.request.shown? = some shown → vm.state = shown)
    (silent : outlook.answers = []) (nobody : asked = none)
  /-- The request was answered before there was a runner. -/
  | refused (outcome : Except FleetError Vm) (time : Nat) (bare : outlook.IsBare)
    (phase : outlook.boot.request = .answered outcome) (gone : outlook.record = none)
    (told : outlook.answers = [time]) (nobody : asked = none)
  /-- The request broke off when the sum of the memory was not told. -/
  | unjudged (bare : outlook.IsBare) (phase : outlook.boot.request = .unjudged)
    (gone : outlook.record = none) (silent : outlook.answers = []) (nobody : asked = none)
  /-- The request broke off when the deadline was not told, and its runner is left to itself. -/
  | abandoned (guest : Guest) (vm : Vm) (manned : outlook.IsManned guest)
    (phase : outlook.boot.request = .abandoned) (race : outlook.boot.race = .absent)
    (reaper : outlook.boot.reaper = .absent) (signal : outlook.boot.signal = .pending)
    (untold : clockEnd ≤ outlook.deadline guest) (halted : guest.haltedAt = asked)
    (alive : guest.endedAt = none) (entered : outlook.record = some vm)
    (shows : guest.Shows vm .pending) (silent : outlook.answers = [])
  /-- The runner has just started. -/
  | started (guest : Guest) (vm : Vm) (manned : outlook.IsManned guest)
    (phase : outlook.boot.request = .started) (race : outlook.boot.race = .absent)
    (reaper : outlook.boot.reaper = .absent) (signal : outlook.boot.signal = .pending)
    (begun : guest.startedAt = outlook.now) (free : guest.haltedAt = none)
    (alive : guest.endedAt = none) (entered : outlook.record = some vm)
    (address : vm.publicIp = "") (state : vm.state = .spawning)
    (silent : outlook.answers = []) (nobody : asked = none)
  /-- Nothing has settled the outcome. Once the runner has ended, nothing but its end will. -/
  | quiet (guest : Guest) (pending : outlook.IsPending guest asked) (opened : outlook.IsOpen guest)
    (attended : outlook.Attended guest .pending)
    (stays : outlook.boot.reaper = .watching ∨ outlook.boot.reaper = .exited ∨
      outlook.boot.reaper = .deregistered)
    (first : outlook.boot.reaper ≠ .watching → outlook.now < outlook.deadline guest ∧
      ∀ report, guest.reportsAt = some report → outlook.now < report)
  /-- The address was heard. -/
  | heard (guest : Guest) (pending : outlook.IsPending guest asked)
    (race : outlook.boot.race = .heard guest.address) (report : outlook.HasReport guest)
    (attended : outlook.Attended guest .pending)
  /-- The address was recorded. -/
  | recorded (guest : Guest) (vm : Vm) (pending : outlook.IsPending guest asked)
    (race : outlook.boot.race = .recorded (some vm)) (report : outlook.HasReport guest)
    (entered : outlook.record = some vm) (attended : outlook.Attended guest (.ready vm))
  /-- The deadline has passed. -/
  | struck (guest : Guest) (pending : outlook.IsPending guest asked)
    (race : outlook.boot.race = .struck) (late : outlook.IsLate guest)
    (attended : outlook.Attended guest .pending)
  /-- The deadline has settled the outcome, and the machine does not show it yet. -/
  | lapsed (guest : Guest) (manned : outlook.IsManned guest) (race : outlook.boot.race = .lapsed)
    (signal : outlook.boot.signal = .timedOut) (late : outlook.IsLate guest)
    (attended : outlook.Attended guest .pending) (replied : outlook.Replied outlook.now)
    (halted : guest.haltedAt = asked)
  /-- The end of the runner has settled the outcome, and the race has not noticed yet. -/
  | unnoticed (guest : Guest) (manned : outlook.IsManned guest)
    (race : outlook.boot.race.IsWaiting) (reaper : outlook.boot.reaper = .settled)
    (signal : outlook.boot.signal = .terminatedEarly)
    (settles : guest.Settles (outlook.deadline guest) .terminatedEarly outlook.now)
    (attended : outlook.Attended guest .terminatedEarly) (replied : outlook.Replied outlook.now)
    (halted : guest.haltedAt = asked)
  /-- The outcome is settled and the race is over. -/
  | decided (guest : Guest) (time : Nat) (manned : outlook.IsManned guest)
    (race : outlook.boot.race = .finished)
    (settles : guest.Settles (outlook.deadline guest) outlook.boot.signal time)
    (attended : outlook.Attended guest outlook.boot.signal) (replied : outlook.Replied time)
    (halted : guest.haltedAt = Guest.haltCause asked (outlook.deadline guest) outlook.boot.signal)
    (past : time ≤ outlook.now)

end Rehearsal

end VmFleet
