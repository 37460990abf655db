/-
This file says once what a step of the daemon can do to its requests and to the
deeds of its registry. There are five turns. A request arrives; a request is
admitted and enters a deed; the request or the reaper that answers for a deed
strikes it; a request goes on and leaves every deed as it is; or something happens
that touches no request. Everything that is said of all runs is said of these five
turns, so no later proof takes the step function apart again.
-/

import VmFleet.Proofs.Supervision.Admission

namespace VmFleet

/-! ### Who answers for an entry -/

/-- The request has an entry that it has handed over to nobody. -/
def RequestPhase.holds : RequestPhase → Bool
  | .reserved | .planned _ | .launching _ | .undoing _ | .started | .abandoned => true
  | .arrived | .unjudged | .waiting | .answered _ => false

/-- The request has not handed its machine over, so nobody else works for it yet. -/
def RequestPhase.isAlone (phase : RequestPhase) : Bool :=
  match phase with
  | .waiting | .answered _ => false
  | _ => true

/-- A request that has handed its machine over answers for nothing any more. -/
theorem RequestPhase.holds_of_isAlone {phase : RequestPhase} (handed : phase.isAlone = false) :
    phase.holds = false := by
  cases phase <;> first | rfl | cases handed

/-- A request that works alone has no answer yet. -/
theorem RequestPhase.isAnswered_of_isAlone {phase : RequestPhase} (alone : phase.isAlone = true) :
    phase.isAnswered = false := by
  cases phase <;> first | rfl | cases alone

/-- A request with an entry of its own works alone. -/
theorem RequestPhase.isAlone_of_holds {phase : RequestPhase} (holds : phase.holds = true) :
    phase.isAlone = true := by
  cases phase <;> first | rfl | cases holds

/-- A request that answers for an entry is at work, unless it broke off. -/
theorem RequestPhase.isOpen_of_holds {phase : RequestPhase} (holds : phase.holds = true)
    (working : phase ≠ .abandoned) : phase.isOpen = true := by
  cases phase <;> first | rfl | exact absurd rfl working | cases holds

/-- The reaper has to see that the entry is taken out again. -/
def ReaperPhase.holds : ReaperPhase → Bool
  | .watching | .exited => true
  | _ => false

namespace Boot

/-- Somebody who works for this request answers for an entry. -/
def holds (boot : Boot) : Bool :=
  boot.request.holds || boot.reaper.holds

/-- Neither the race nor the reaper is there before the machine was handed over. -/
def Phased (boot : Boot) : Prop :=
  boot.request.isAlone = true → boot.race = .absent ∧ boot.reaper = .absent

/-- An answer that was given is not given again. -/
def Abides (boot after : Boot) : Prop :=
  ∀ outcome, boot.request = .answered outcome → after.request = .answered outcome

/-- A request that has no answer yet may get any. -/
theorem abides_of_isAnswered {boot : Boot} (after : Boot)
    (waits : boot.request.isAnswered = false) : boot.Abides after := by
  intro outcome answered
  rw [answered] at waits
  cases waits

/-- A request goes on, and whoever answered for its entry still does. -/
structure GoesOn (boot after : Boot) : Prop where
  vm : after.vm = boot.vm
  holds : after.holds = boot.holds
  phased : boot.Phased → after.Phased
  begun : after.request = .arrived → boot.request = .arrived
  abides : boot.Abides after

theorem phased_ofDraft (draft : Vm) : (ofDraft draft).Phased :=
  fun _ => ⟨rfl, rfl⟩

/-- Only the race moves, and it was there before. -/
theorem goesOn_race (boot : Boot) (phase : RacePhase) (signal : BootSignal)
    (present : boot.race ≠ .absent) :
    boot.GoesOn { boot with race := phase, signal } where
  vm := rfl
  holds := rfl
  phased phased alone := absurd (phased alone).1 present
  begun := id
  abides _ := id

/-- Only the reaper moves, it was there before, and it answers for an entry as it did. -/
theorem goesOn_reaper (boot : Boot) (phase : ReaperPhase) (signal : BootSignal)
    (present : boot.reaper ≠ .absent) (same : phase.holds = boot.reaper.holds) :
    boot.GoesOn { boot with reaper := phase, signal } where
  vm := rfl
  holds := congrArg (boot.request.holds || ·) same
  phased phased alone := absurd (phased alone).2 present
  begun := id
  abides _ := id

/-- The request moves on while it works alone. -/
theorem goesOn_alone (boot : Boot) (phase : RequestPhase) (pid : Int)
    (alone : boot.request.isAlone = true) (same : phase.holds = boot.request.holds)
    (begun : phase ≠ .arrived) :
    boot.GoesOn { boot with request := phase, pid } where
  vm := rfl
  holds := congrArg (· || boot.reaper.holds) same
  phased phased _ := phased alone
  begun back := absurd back begun
  abides := abides_of_isAnswered _ (RequestPhase.isAnswered_of_isAlone alone)

/-- The request is answered and does not answer for an entry. -/
theorem goesOn_answered (boot : Boot) (outcome : Except FleetError Vm)
    (free : boot.request.holds = false) (waits : boot.request.isAnswered = false) :
    boot.GoesOn { boot with request := .answered outcome } where
  vm := rfl
  holds := congrArg (· || boot.reaper.holds) free.symm
  phased _ alone := absurd alone (by simp [RequestPhase.isAlone])
  begun back := nomatch back
  abides := abides_of_isAnswered _ waits

/-- Whoever answers for an entry is at work, unless the request broke off. -/
theorem jobs_pos {boot : Boot} (holds : boot.holds = true) (working : boot.request ≠ .abandoned) :
    0 < boot.jobs := by
  unfold Boot.jobs
  cases early : boot.request.holds with
  | true =>
    rw [RequestPhase.isOpen_of_holds early working, Bool.toNat_true]
    omega
  | false =>
    have late : boot.reaper.holds = true := by simpa [Boot.holds, early] using holds
    have opened : boot.reaper.isOpen = true := by
      cases reaper : boot.reaper <;> rw [reaper] at late <;> first | rfl | cases late
    rw [opened, Bool.toNat_true]
    omega

end Boot

namespace Daemon

/-- The deeds of the daemon. -/
def deeds (daemon : Daemon) : Keyed RegistryEntry :=
  daemon.shared.registry.deeds

/-! ### The five turns -/

end Daemon

/-- The request for which an event takes the entry out of the registry. -/
def Event.released? : Event → Option Nat
  | .rollBack serial => some serial
  | .deregister serial => some serial
  | _ => none

namespace Daemon

/-- What a step does to the requests and to the deeds. -/
inductive Turn (daemon : Daemon) (event : Event) (next : Daemon) : Prop
  /-- A request arrives. -/
  | arrival (draft : Vm)
    (kept : event.released? = none)
    (boots : next.boots = daemon.boots ++ [Boot.ofDraft draft])
    (deeds : next.deeds = daemon.deeds)
  /-- A request is admitted under an identity that was free. -/
  | admission (serial : Nat) (boot : Boot) (draws : Nat → Uuid) (time : UInt64) (vm : Vm)
    (asked : event = .reserve serial draws time)
    (found : daemon.boots[serial]? = some boot)
    (phase : boot.request = .arrived)
    (outcome : (daemon.admission serial boot draws time).outcome = .admitted vm)
    (free : daemon.deeds.find? vm.uuid = none)
    (boots : next.boots = daemon.boots.set serial { boot with vm, request := .reserved })
    (deeds : next.deeds = daemon.deeds.insert vm.uuid ⟨vm, serial⟩)
  /-- Whoever answers for an entry takes it out. -/
  | release (serial : Nat) (boot after : Boot)
    (released : event.released? = some serial)
    (found : daemon.boots[serial]? = some boot)
    (held : boot.holds = true)
    (freed : boot.Phased → after.holds = false)
    (phased : boot.Phased → after.Phased)
    (begun : boot.Phased → after.request ≠ .arrived)
    (abides : boot.Abides after)
    (boots : next.boots = daemon.boots.set serial after)
    (deeds : next.deeds = daemon.deeds.erase boot.vm.uuid)
  /-- A request goes on. -/
  | course (serial : Nat) (boot after : Boot)
    (kept : event.released? = none)
    (found : daemon.boots[serial]? = some boot)
    (onward : boot.GoesOn after)
    (boots : next.boots = daemon.boots.set serial after)
    (deeds : next.deeds = daemon.deeds)
  /-- Something happens that touches no request. -/
  | aside
    (kept : event.released? = none)
    (boots : next.boots = daemon.boots)
    (deeds : next.deeds = daemon.deeds)

/-! ### Each event takes one of the turns -/

variable {daemon next : Daemon} {serial : Nat} {boot : Boot}

/-- A request is judged: it is admitted or answered at once, or it breaks off. -/
theorem turn_reserve (found : daemon.boots[serial]? = some boot) (phase : boot.request = .arrived)
    (draws : Nat → Uuid) (time : UInt64) :
    Turn daemon (.reserve serial draws time) (daemon.reserve serial boot draws time) := by
  cases judged : (daemon.admission serial boot draws time).outcome with
  | refused error =>
    refine .course serial boot _ rfl found
      (boot.goesOn_answered (.error error) (by rw [phase]; rfl) (by rw [phase]; rfl)) ?_
      (congrArg (·.registry.deeds) (shared_reserve draws time (by rw [judged]; exact nofun)))
    rw [reserve, judged]
    rfl
  | broken =>
    refine .course serial boot _ rfl found
      (boot.goesOn_alone .unjudged boot.pid (by rw [phase]; rfl) (by rw [phase]; rfl) nofun) ?_
      (congrArg (·.registry.deeds) (shared_reserve draws time (by rw [judged]; exact nofun)))
    rw [reserve, judged]
    rfl
  | admitted vm =>
    obtain ⟨-, -, ⟨identity, -, enrolled⟩, free, entered⟩ := Shared.accept_eq_admitted judged
    refine .admission serial boot draws time vm rfl found phase judged ?_ ?_ ?_
    · show daemon.shared.registry.deeds.find? vm.uuid = none
      rw [Registry.find?_deeds, free]
      rfl
    · rw [reserve, judged]
      rfl
    · show ((daemon.admission serial boot draws time).shared).registry.deeds = _
      rw [show (daemon.admission serial boot draws time).shared = _ from entered]
      refine (Keyed.view_insert _ _ _ _).trans ?_
      rw [enrolled]
      rfl

/-- The boot is planned, or the reservation is to be undone. -/
theorem turn_prepare (found : daemon.boots[serial]? = some boot)
    (phase : boot.request = .reserved) :
    Turn daemon (.prepare serial) (daemon.prepare serial boot) := by
  refine .course serial boot _ rfl found
    (boot.goesOn_alone _ boot.pid (by rw [phase]; rfl) ?_ ?_) rfl rfl
  · rw [phase]
    split <;> rfl
  · split <;> exact nofun

theorem turn_rollBack {error : FleetError} (found : daemon.boots[serial]? = some boot)
    (phase : boot.request = .undoing error) :
    Turn daemon (.rollBack serial) (daemon.rollBack serial boot error) := by
  refine .release serial boot { boot with request := .answered (.error error) } rfl found
    (by simp [Boot.holds, phase, RequestPhase.holds]) (fun phased => ?_)
    (fun _ alone => nomatch alone) (fun _ => nofun)
    (Boot.abides_of_isAnswered _ (by rw [phase]; rfl)) rfl (Registry.deeds_remove _ _)
  have alone := (phased (by rw [phase]; rfl)).2
  simp [Boot.holds, RequestPhase.holds, ReaperPhase.holds, alone]

theorem turn_announce {plan : BootPlan} (found : daemon.boots[serial]? = some boot)
    (phase : boot.request = .planned plan) :
    Turn daemon (.announce serial) (daemon.announce serial boot plan) :=
  .course serial boot _ rfl found
    (boot.goesOn_alone (.launching plan) boot.pid (by rw [phase]; rfl) (by rw [phase]; rfl) nofun)
    rfl (Registry.deeds_setState _ _ _)

theorem turn_launch {plan : BootPlan} (found : daemon.boots[serial]? = some boot)
    (phase : boot.request = .launching plan) (outcome : Except FleetError Spawned) :
    Turn daemon (.launch serial outcome) (daemon.launch serial boot outcome) := by
  have alone : boot.request.isAlone = true := by rw [phase]; rfl
  have held : boot.request.holds = true := by rw [phase]; rfl
  obtain ⟨tree, same⟩ := launch_eq daemon serial boot outcome
  rw [same]
  cases outcome with
  | ok spawned =>
    exact .course serial boot _ rfl found
      (boot.goesOn_alone .started spawned.pid alone held.symm nofun) rfl rfl
  | error error =>
    exact .course serial boot _ rfl found
      (boot.goesOn_alone (.undoing _) boot.pid alone held.symm nofun) rfl rfl

theorem deeds_recordProcess (boot : Boot) : (daemon.recordProcess boot).deeds = daemon.deeds :=
  (Registry.deeds_setState _ _ _).trans (Registry.deeds_update _ _ _ fun _ => rfl)

/-- The reaper takes the entry over from the request, or nobody does. -/
theorem turn_handOver (found : daemon.boots[serial]? = some boot)
    (phase : boot.request = .started) (now : Int) :
    Turn daemon (.handOver serial now) (daemon.handOver serial boot now) := by
  rcases daemon.handOver_cases serial boot now with same | same
  · rw [same]
    refine .course serial boot
      { boot with request := .waiting, race := .listening, reaper := .watching } rfl found
      ⟨rfl, ?_, fun _ alone => Bool.noConfusion alone, nofun,
        Boot.abides_of_isAnswered _ (by rw [phase]; rfl)⟩ rfl (deeds_recordProcess boot)
    simp [Boot.holds, RequestPhase.holds, ReaperPhase.holds, phase]
  · rw [same]
    exact .course serial boot _ rfl found
      (boot.goesOn_alone .abandoned boot.pid (by rw [phase]; rfl) (by rw [phase]; rfl) nofun) rfl
      (deeds_recordProcess boot)

theorem turn_recordAddress {address : String} (found : daemon.boots[serial]? = some boot)
    (phase : boot.race = .heard address) :
    Turn daemon (.recordAddress serial) (daemon.recordAddress serial boot address) := by
  refine .course serial boot _ rfl found
    (boot.goesOn_race _ boot.signal (by rw [phase]; exact nofun)) rfl ?_
  exact (Registry.deeds_setState _ _ _).trans (Registry.deeds_update _ _ _ fun _ => rfl)

theorem turn_markFailed (found : daemon.boots[serial]? = some boot) (phase : boot.race = .lapsed) :
    Turn daemon (.markFailed serial) (daemon.markFailed serial boot) := by
  refine .course serial boot _ rfl found
    (boot.goesOn_race .finished boot.signal (by rw [phase]; exact nofun)) rfl ?_
  exact (Registry.deeds_cancel _ _).trans (Registry.deeds_setState _ _ _)

theorem turn_deregister (found : daemon.boots[serial]? = some boot)
    (phase : boot.reaper = .exited) :
    Turn daemon (.deregister serial) (daemon.deregister serial boot) := by
  have late : boot.Phased → boot.request.isAlone = false := by
    intro phased
    refine Bool.eq_false_iff.mpr fun alone => ?_
    have absent := (phased alone).2
    rw [phase] at absent
    cases absent
  refine .release serial boot { boot with reaper := .deregistered } rfl found
    (by simp [Boot.holds, phase, ReaperPhase.holds]) (fun phased => ?_) (fun phased alone => ?_)
    (fun phased arrived => ?_) (fun _ => id) rfl (Registry.deeds_remove _ _)
  · show (boot.request.holds || false) = false
    rw [RequestPhase.holds_of_isAlone (late phased)]
    rfl
  · exact absurd alone (by simp [late phased])
  · have handed := late phased
    rw [show boot.request = .arrived from arrived] at handed
    cases handed

/-- The race goes on, with the outcome settled or not. -/
theorem turn_race {event : Event} {phase : RacePhase} (signal : BootSignal)
    (kept : event.released? = none) (found : daemon.boots[serial]? = some boot)
    (present : boot.race ≠ .absent) :
    Turn daemon event (daemon.put serial { boot with race := phase, signal }) :=
  .course serial boot _ kept found (boot.goesOn_race phase signal present) rfl rfl

/-- The reaper goes on, with the outcome settled or not. -/
theorem turn_reaper {event : Event} {phase : ReaperPhase} (signal : BootSignal)
    (kept : event.released? = none) (found : daemon.boots[serial]? = some boot)
    (present : boot.reaper ≠ .absent) (same : phase.holds = boot.reaper.holds) :
    Turn daemon event (daemon.put serial { boot with reaper := phase, signal }) :=
  .course serial boot _ kept found (boot.goesOn_reaper phase signal present same) rfl rfl

/-- Asking machines to end leaves every deed as it is. -/
theorem deeds_stop (targets : List String) : (daemon.stop targets).1.deeds = daemon.deeds :=
  Registry.deeds_halt _ _

theorem deeds_listImages : daemon.listImages.1.deeds = daemon.deeds := by
  obtain ⟨tree, media, same⟩ := listImages_eq daemon
  rw [same]
  rfl

theorem boots_listImages : daemon.listImages.1.boots = daemon.boots := by
  obtain ⟨tree, media, same⟩ := listImages_eq daemon
  rw [same]

theorem deeds_takeImage (channel version : String) :
    (daemon.takeImage channel version).1.deeds = daemon.deeds := by
  obtain ⟨media, same⟩ := takeImage_eq daemon channel version
  rw [same]
  rfl

theorem boots_takeImage (channel version : String) :
    (daemon.takeImage channel version).1.boots = daemon.boots := by
  obtain ⟨media, same⟩ := takeImage_eq daemon channel version
  rw [same]

/-- Every step is one of the five turns. -/
theorem turn_of_rule {event : Event} (rule : Rule daemon event next) : Turn daemon event next := by
  cases rule with
  | submit draft => exact .arrival draft rfl rfl rfl
  | reserve draws time found phase => exact turn_reserve found phase draws time
  | prepare found phase => exact turn_prepare found phase
  | rollBack found phase => exact turn_rollBack found phase
  | announce found phase => exact turn_announce found phase
  | launch outcome found phase => exact turn_launch found phase outcome
  | handOver now found phase => exact turn_handOver found phase now
  | answer found phase settled =>
    exact .course _ _ _ rfl found
      (Boot.goesOn_answered _ _ (by rw [phase]; rfl) (by rw [phase]; rfl)) rfl rfl
  | hear address found phase => exact turn_race _ rfl found (by rw [phase]; exact nofun)
  | fallSilent found phase => exact turn_race _ rfl found (by rw [phase]; exact nofun)
  | strike found phase => exact turn_race _ rfl found phase.ne_absent
  | notice found phase settled => exact turn_race _ rfl found phase.ne_absent
  | recordAddress found phase => exact turn_recordAddress found phase
  | settleAddress found phase => exact turn_race _ rfl found (by rw [phase]; exact nofun)
  | settleDeadline found phase => exact turn_race _ rfl found (by rw [phase]; exact nofun)
  | markFailed found phase => exact turn_markFailed found phase
  | exit found phase =>
    exact turn_reaper _ rfl found (by rw [phase]; exact nofun) (by rw [phase]; rfl)
  | deregister found phase => exact turn_deregister found phase
  | settleExit found phase =>
    exact turn_reaper _ rfl found (by rw [phase]; exact nofun) (by rw [phase]; rfl)
  | clearConsole found phase =>
    exact .course _ _ _ rfl found
      (Boot.goesOn_reaper _ .grace _ (by rw [phase]; exact nofun) (by rw [phase]; rfl)) rfl rfl
  | finish found phase =>
    exact turn_reaper _ rfl found (by rw [phase]; exact nofun) (by rw [phase]; rfl)
  | stop targets => exact .aside rfl rfl (deeds_stop targets)
  | shutDown => exact .aside rfl rfl (Registry.deeds_halt _ _)
  | listImages => exact .aside rfl boots_listImages deeds_listImages
  | takeImage channel version =>
    exact .aside rfl (boots_takeImage channel version) (deeds_takeImage channel version)
  | deleteImage channel version => exact .aside rfl rfl rfl
  | disturb tree => exact .aside rfl rfl rfl

end Daemon

end VmFleet
