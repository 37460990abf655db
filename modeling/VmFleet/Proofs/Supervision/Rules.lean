/-
This file reads the step function of the daemon as a list of rules, one for each
event. A rule says in which phase its request has to be and which daemon follows.
The function takes a step exactly if a rule allows it, so a proof about all steps
goes through the rules one by one and never meets a step that is refused. Where a
step branches inside, one equation says what it changes whichever branch it takes.
-/

import VmFleet.Supervision.Step

namespace VmFleet

/-- The race still waits for something to happen. -/
def RacePhase.IsWaiting (phase : RacePhase) : Prop :=
  phase = .listening ∨ phase = .deaf

theorem RacePhase.IsWaiting.ne_absent {phase : RacePhase} (waiting : phase.IsWaiting) :
    phase ≠ .absent := by
  rcases waiting with rfl | rfl <;> exact nofun

/-! ### Times -/

namespace Config

theorem timeLimit_eq : timeLimit = 9223372036854775808 :=
  rfl

theorem isSome_later? (time : Int) (seconds : UInt64) :
    (later? time seconds).isSome = true ↔ time + seconds.toNat < timeLimit := by
  unfold later?
  simp

theorem later?_eq_some {time : Int} {seconds : UInt64}
    (told : time + seconds.toNat < timeLimit) :
    later? time seconds = some (time + seconds.toNat) :=
  if_pos told

theorem later?_eq_none {time : Int} {seconds : UInt64}
    (untold : timeLimit ≤ time + seconds.toNat) : later? time seconds = none :=
  if_neg (Int.not_lt.mpr untold)

end Config

/-! ### The rules -/

/-- A request once its runner was started, or could not be. -/
def Boot.afterLaunch (boot : Boot) : Except FleetError Spawned → Boot
  | .ok spawned => { boot with pid := spawned.pid, request := .started }
  | .error error =>
    { boot with request := .undoing (.spawnFailed boot.vm.name error.flatten) }

namespace Daemon

/-- The rules for the steps of a daemon. -/
inductive Rule (daemon : Daemon) : Event → Daemon → Prop
  | submit (draft : Vm) : Rule daemon (.submit draft) (daemon.submit draft)
  | reserve {serial : Nat} {boot : Boot} (draws : Nat → Uuid) (time : UInt64)
    (found : daemon.boots[serial]? = some boot) (phase : boot.request = .arrived) :
    Rule daemon (.reserve serial draws time) (daemon.reserve serial boot draws time)
  | prepare {serial : Nat} {boot : Boot}
    (found : daemon.boots[serial]? = some boot) (phase : boot.request = .reserved) :
    Rule daemon (.prepare serial) (daemon.prepare serial boot)
  | rollBack {serial : Nat} {boot : Boot} {error : FleetError}
    (found : daemon.boots[serial]? = some boot) (phase : boot.request = .undoing error) :
    Rule daemon (.rollBack serial) (daemon.rollBack serial boot error)
  | announce {serial : Nat} {boot : Boot} {plan : BootPlan}
    (found : daemon.boots[serial]? = some boot) (phase : boot.request = .planned plan) :
    Rule daemon (.announce serial) (daemon.announce serial boot plan)
  | launch {serial : Nat} {boot : Boot} {plan : BootPlan} (outcome : Except FleetError Spawned)
    (found : daemon.boots[serial]? = some boot) (phase : boot.request = .launching plan) :
    Rule daemon (.launch serial outcome) (daemon.launch serial boot outcome)
  | handOver {serial : Nat} {boot : Boot} (now : Int)
    (found : daemon.boots[serial]? = some boot) (phase : boot.request = .started) :
    Rule daemon (.handOver serial now) (daemon.handOver serial boot now)
  | answer {serial : Nat} {boot : Boot}
    (found : daemon.boots[serial]? = some boot) (phase : boot.request = .waiting)
    (settled : boot.signal.isPending = false) :
    Rule daemon (.answer serial) (daemon.answer serial boot)
  | hear {serial : Nat} {boot : Boot} (address : String)
    (found : daemon.boots[serial]? = some boot) (phase : boot.race = .listening) :
    Rule daemon (.hear serial address) (daemon.put serial { boot with race := .heard address })
  | fallSilent {serial : Nat} {boot : Boot}
    (found : daemon.boots[serial]? = some boot) (phase : boot.race = .listening) :
    Rule daemon (.fallSilent serial) (daemon.put serial { boot with race := .deaf })
  | strike {serial : Nat} {boot : Boot}
    (found : daemon.boots[serial]? = some boot) (phase : boot.race.IsWaiting) :
    Rule daemon (.strike serial) (daemon.put serial { boot with race := .struck })
  | notice {serial : Nat} {boot : Boot}
    (found : daemon.boots[serial]? = some boot) (phase : boot.race.IsWaiting)
    (settled : boot.signal.isPending = false) :
    Rule daemon (.notice serial) (daemon.put serial { boot with race := .finished })
  | recordAddress {serial : Nat} {boot : Boot} {address : String}
    (found : daemon.boots[serial]? = some boot) (phase : boot.race = .heard address) :
    Rule daemon (.recordAddress serial) (daemon.recordAddress serial boot address)
  | settleAddress {serial : Nat} {boot : Boot} {ready : Option Vm}
    (found : daemon.boots[serial]? = some boot) (phase : boot.race = .recorded ready) :
    Rule daemon (.settleAddress serial) (daemon.settleAddress serial boot ready)
  | settleDeadline {serial : Nat} {boot : Boot}
    (found : daemon.boots[serial]? = some boot) (phase : boot.race = .struck) :
    Rule daemon (.settleDeadline serial) (daemon.settleDeadline serial boot)
  | markFailed {serial : Nat} {boot : Boot}
    (found : daemon.boots[serial]? = some boot) (phase : boot.race = .lapsed) :
    Rule daemon (.markFailed serial) (daemon.markFailed serial boot)
  | exit {serial : Nat} {boot : Boot}
    (found : daemon.boots[serial]? = some boot) (phase : boot.reaper = .watching) :
    Rule daemon (.exit serial) (daemon.put serial { boot with reaper := .exited })
  | deregister {serial : Nat} {boot : Boot}
    (found : daemon.boots[serial]? = some boot) (phase : boot.reaper = .exited) :
    Rule daemon (.deregister serial) (daemon.deregister serial boot)
  | settleExit {serial : Nat} {boot : Boot}
    (found : daemon.boots[serial]? = some boot) (phase : boot.reaper = .deregistered) :
    Rule daemon (.settleExit serial) (daemon.settleExit serial boot)
  | clearConsole {serial : Nat} {boot : Boot}
    (found : daemon.boots[serial]? = some boot) (phase : boot.reaper = .settled) :
    Rule daemon (.clearConsole serial) (daemon.clearConsole serial boot)
  | finish {serial : Nat} {boot : Boot}
    (found : daemon.boots[serial]? = some boot) (phase : boot.reaper = .grace) :
    Rule daemon (.finish serial) (daemon.put serial { boot with reaper := .finished })
  | stop (targets : List String) : Rule daemon (.stop targets) (daemon.stop targets).1
  | shutDown : Rule daemon .shutDown daemon.shutDown.1
  | listImages : Rule daemon .listImages daemon.listImages.1
  | takeImage (channel version : String) :
    Rule daemon (.takeImage channel version) (daemon.takeImage channel version).1
  | deleteImage (channel : String) (version : Version) :
    Rule daemon (.deleteImage channel version) (daemon.deleteImage channel version).1
  | disturb (tree : Tree) : Rule daemon (.disturb tree) { daemon with tree }

theorem onBoot_eq_some {daemon next : Daemon} {serial : Nat} {change : Boot → Option Daemon}
    (stepped : daemon.onBoot serial change = some next) :
    ∃ boot, daemon.boots[serial]? = some boot ∧ change boot = some next :=
  Option.bind_eq_some_iff.mp stepped

/-- A step that is taken is allowed by the rule of its event. -/
theorem rule_of_step? {daemon next : Daemon} {event : Event}
    (stepped : daemon.step? event = some next) : Rule daemon event next := by
  cases event
  case submit | stop | shutDown | listImages | takeImage | deleteImage | disturb =>
    cases stepped
    constructor
  case answer serial =>
    obtain ⟨boot, found, moved⟩ := onBoot_eq_some stepped
    split at moved
    · rename_i phase
      split at moved
      · cases moved
      · rename_i settled
        cases moved
        exact .answer found phase (by simpa using settled)
    · cases moved
  case strike serial =>
    obtain ⟨boot, found, moved⟩ := onBoot_eq_some stepped
    split at moved
    · rename_i phase
      cases moved
      exact .strike found (.inl phase)
    · rename_i phase
      cases moved
      exact .strike found (.inr phase)
    · cases moved
  case notice serial =>
    obtain ⟨boot, found, moved⟩ := onBoot_eq_some stepped
    cases settled : boot.signal.isPending with
    | true => split at moved <;> simp [settled] at moved
    | false =>
      split at moved
      · rename_i phase
        simp only [settled, Bool.false_eq_true, if_false] at moved
        cases moved
        exact .notice found (.inl phase) settled
      · rename_i phase
        simp only [settled, Bool.false_eq_true, if_false] at moved
        cases moved
        exact .notice found (.inr phase) settled
      · cases moved
  -- every other event asks for one phase of its request
  all_goals
    obtain ⟨boot, found, moved⟩ := onBoot_eq_some stepped
    split at moved
    · cases moved
      constructor <;> assumption
    · cases moved

/-- What a rule allows is a step. -/
theorem step?_of_rule {daemon next : Daemon} {event : Event} (rule : Rule daemon event next) :
    daemon.step? event = some next := by
  cases rule
  case strike phase | notice phase _ =>
    rcases phase with phase | phase <;> simp_all [step?, onBoot, boot?]
  all_goals simp_all [step?, onBoot, boot?]

/-! ### Steps with branches -/

/-- A launch changes its request, and the tree if a console was made. -/
theorem launch_eq (daemon : Daemon) (serial : Nat) (boot : Boot)
    (outcome : Except FleetError Spawned) :
    ∃ tree, daemon.launch serial boot outcome =
      { daemon with tree, boots := daemon.boots.set serial (boot.afterLaunch outcome) } := by
  cases outcome with
  | error error => exact ⟨_, rfl⟩
  | ok spawned =>
    simp only [launch]
    split <;> exact ⟨_, rfl⟩

/-- A deadline that can be told starts the race and the reaper. -/
theorem handOver_of_told {daemon : Daemon} {now : Int}
    (told : now + daemon.setup.settings.bootTimeout.toNat < Config.timeLimit) (serial : Nat)
    (boot : Boot) :
    daemon.handOver serial boot now = (daemon.recordProcess boot).startWatch serial boot := by
  unfold handOver
  rw [Config.later?_eq_some told]

/-- A deadline that cannot be told leaves the machine to itself. -/
theorem handOver_of_untold {daemon : Daemon} {now : Int}
    (untold : Config.timeLimit ≤ now + daemon.setup.settings.bootTimeout.toNat) (serial : Nat)
    (boot : Boot) :
    daemon.handOver serial boot now = (daemon.recordProcess boot).abandon serial boot := by
  unfold handOver
  rw [Config.later?_eq_none untold]

theorem handOver_cases (daemon : Daemon) (serial : Nat) (boot : Boot) (now : Int) :
    daemon.handOver serial boot now = (daemon.recordProcess boot).startWatch serial boot ∨
      daemon.handOver serial boot now = (daemon.recordProcess boot).abandon serial boot :=
  (Int.lt_or_le _ _).imp (handOver_of_told · serial boot) (handOver_of_untold · serial boot)

/-- A hand-over records the process, and only its request sees whether the deadline is told. -/
theorem handOver_eq (daemon : Daemon) (serial : Nat) (boot : Boot) (now : Int) :
    ∃ after, daemon.handOver serial boot now = (daemon.recordProcess boot).put serial after := by
  rcases daemon.handOver_cases serial boot now with same | same <;> exact ⟨_, same⟩

/-- A scan changes the tree and the index. -/
theorem listImages_eq (daemon : Daemon) :
    ∃ tree media, daemon.listImages.1 =
      { daemon with tree, shared := { daemon.shared with media } } := by
  unfold listImages
  split
  split <;> exact ⟨_, _, rfl⟩

/-- To take a version out of the index changes the index. -/
theorem takeImage_eq (daemon : Daemon) (channel version : String) :
    ∃ media, (daemon.takeImage channel version).1 =
      { daemon with shared := { daemon.shared with media } } := by
  unfold takeImage
  split <;> exact ⟨_, rfl⟩

/-- Nothing changes what a daemon was set up with. -/
theorem setup_of_rule (rule : Rule daemon event next) : next.setup = daemon.setup := by
  cases rule with
  | @launch serial boot plan outcome found phase =>
    obtain ⟨tree, same⟩ := launch_eq daemon serial boot outcome
    rw [same]
  | @handOver serial boot now found phase =>
    obtain ⟨after, same⟩ := handOver_eq daemon serial boot now
    rw [same]
    rfl
  | listImages =>
    obtain ⟨tree, media, same⟩ := listImages_eq daemon
    rw [same]
  | takeImage channel version =>
    obtain ⟨media, same⟩ := takeImage_eq daemon channel version
    rw [same]
  | _ => rfl

/-! ### Runs -/

theorem run?_cons_eq_some {daemon later : Daemon} {event : Event} {events : List Event} :
    daemon.run? (event :: events) = some later ↔
      ∃ next, daemon.step? event = some next ∧ next.run? events = some later := by
  unfold run?
  rw [List.foldlM_cons]
  exact Option.bind_eq_some_iff

theorem run?_concat_eq_some {daemon later : Daemon} {events : List Event} {event : Event} :
    daemon.run? (events ++ [event]) = some later ↔
      ∃ middle, daemon.run? events = some middle ∧ middle.step? event = some later := by
  unfold run?
  rw [List.foldlM_append]
  refine Option.bind_eq_some_iff.trans ?_
  simp

/-- What a daemon can come to be is what its runs lead to. -/
theorem reachable_iff {start daemon : Daemon} :
    Reachable start daemon ↔ ∃ events, start.run? events = some daemon := by
  constructor
  · intro reached
    induction reached with
    | start => exact ⟨[], rfl⟩
    | step event _ stepped inductionHypothesis =>
      obtain ⟨events, ran⟩ := inductionHypothesis
      exact ⟨events ++ [event], run?_concat_eq_some.mpr ⟨_, ran, stepped⟩⟩
  · rintro ⟨events, ran⟩
    suffices onward : ∀ (events : List Event) (middle : Daemon), Reachable start middle →
        middle.run? events = some daemon → Reachable start daemon
      from onward events start .start ran
    intro events
    induction events with
    | nil =>
      intro middle reached ran
      obtain rfl := Option.some.inj ran
      exact reached
    | cons event events inductionHypothesis =>
      intro middle reached ran
      obtain ⟨next, stepped, rest⟩ := run?_cons_eq_some.mp ran
      exact inductionHypothesis next (.step event reached stepped) rest

/-- What every step keeps, every run keeps. -/
theorem run?_keeps (Holds : Daemon → Prop)
    (keeps : ∀ {daemon next event}, Holds daemon → step? daemon event = some next → Holds next)
    {start daemon : Daemon} {events : List Event} (first : Holds start)
    (ran : start.run? events = some daemon) : Holds daemon := by
  induction events generalizing start with
  | nil =>
    obtain rfl := Option.some.inj ran
    exact first
  | cons event events inductionHypothesis =>
    obtain ⟨next, stepped, rest⟩ := run?_cons_eq_some.mp ran
    exact inductionHypothesis (keeps first stepped) rest

end Daemon

end VmFleet
