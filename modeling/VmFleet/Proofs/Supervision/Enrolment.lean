/-
This file follows a request from its draft to its record. Nobody works for a request
that has only arrived, and none of its steps but the judgement can be taken. From its
admission on it is pursued: it keeps its draft and its record, and once its places are
prepared they are not prepared again. So the record of a request that somebody works
for always says which draft it was made of, and its address was given for its identity.
-/

import VmFleet.Proofs.Supervision.Identity

namespace VmFleet

namespace Boot

/-- Nobody works for the request: it waits to be judged, or it broke off or was answered with an
error before there was a process. -/
structure IsDormant (boot : Boot) : Prop where
  race : boot.race = .absent
  reaper : boot.reaper = .absent
  request : boot.request = .arrived ∨ boot.request = .unjudged ∨
    ∃ error, boot.request = .answered (.error error)

/-- The places of the machine are not to be prepared any more. -/
def IsPrepared (boot : Boot) : Prop :=
  boot.request ≠ .arrived ∧ boot.request ≠ .reserved

/-- A request that is at work goes on with its draft and its record. -/
structure Pursues (boot after : Boot) : Prop where
  awake : ¬ boot.IsDormant
  draft : after.draft = boot.draft
  vm : after.vm = boot.vm
  request : after.request = boot.request ∨ after.IsPrepared

variable {boot after : Boot}

theorem not_isDormant_of_holds (holds : boot.request.holds = true) : ¬ boot.IsDormant := by
  rintro ⟨-, -, phase | phase | ⟨error, phase⟩⟩ <;>
  · rw [phase] at holds
    cases holds

theorem not_isDormant_of_waiting (waits : boot.request = .waiting) : ¬ boot.IsDormant := by
  rintro ⟨-, -, phase | phase | ⟨error, phase⟩⟩ <;>
  · rw [waits] at phase
    cases phase

theorem not_isDormant_of_race {phase : RacePhase} (at' : boot.race = phase)
    (present : phase ≠ .absent) : ¬ boot.IsDormant :=
  fun dormant => present (at'.symm.trans dormant.race)

theorem not_isDormant_of_reaper {phase : ReaperPhase} (at' : boot.reaper = phase)
    (present : phase ≠ .absent) : ¬ boot.IsDormant :=
  fun dormant => present (at'.symm.trans dormant.reaper)

/-- Only the request itself goes on, and its places are prepared by then. -/
theorem pursues_request {request : RequestPhase} (awake : ¬ boot.IsDormant) (pid : Int)
    (race : RacePhase) (reaper : ReaperPhase) (begun : request ≠ .arrived)
    (prepared : request ≠ .reserved) :
    boot.Pursues { boot with request, pid, race, reaper } :=
  ⟨awake, rfl, rfl, .inr ⟨begun, prepared⟩⟩

/-- The race or the reaper goes on. -/
theorem pursues_others (awake : ¬ boot.IsDormant) (race : RacePhase) (reaper : ReaperPhase)
    (signal : BootSignal) : boot.Pursues { boot with race, reaper, signal } :=
  ⟨awake, rfl, rfl, .inl rfl⟩

theorem Pursues.isPrepared (pursues : boot.Pursues after) (prepared : boot.IsPrepared) :
    after.IsPrepared := by
  rcases pursues.request with same | prepared
  · unfold IsPrepared
    rw [same]
    exact prepared
  · exact prepared

/-- What is pursued is not judged again. -/
theorem Pursues.begun (pursues : boot.Pursues after) (begun : boot.request ≠ .arrived) :
    after.request ≠ .arrived := by
  rcases pursues.request with same | prepared
  · rw [same]
    exact begun
  · exact prepared.1

end Boot

namespace Daemon

variable {daemon next : Daemon} {event : Event} {serial : Nat} {boot after : Boot}

/-- What a step does to the requests: one arrives, one is judged, one that is at work goes on, or
none is touched. -/
inductive Proceeds (daemon : Daemon) (event : Event) (next : Daemon) : Prop
  | arrival (draft : Vm) (boots : next.boots = daemon.boots ++ [Boot.ofDraft draft])
  | judgement (serial : Nat) (boot : Boot) (draws : Nat → Uuid) (time : UInt64)
    (found : daemon.boots[serial]? = some boot) (phase : boot.request = .arrived)
    (judged : next = daemon.reserve serial boot draws time)
  | course (serial : Nat) (boot after : Boot)
    (found : daemon.boots[serial]? = some boot) (onward : boot.Pursues after)
    (boots : next.boots = daemon.boots.set serial after)
  | aside (boots : next.boots = daemon.boots)

theorem proceeds_launch {plan : BootPlan} (found : daemon.boots[serial]? = some boot)
    (phase : boot.request = .launching plan) (outcome : Except FleetError Spawned) :
    Proceeds daemon event (daemon.launch serial boot outcome) := by
  have awake : ¬ boot.IsDormant := Boot.not_isDormant_of_holds (by rw [phase]; rfl)
  obtain ⟨tree, same⟩ := launch_eq daemon serial boot outcome
  rw [same]
  cases outcome with
  | ok spawned =>
    refine .course serial boot _ found ?_ rfl
    exact Boot.pursues_request awake _ _ _ (by simp) (by simp)
  | error error =>
    refine .course serial boot _ found ?_ rfl
    exact Boot.pursues_request awake _ _ _ (by simp) (by simp)

theorem proceeds_handOver (found : daemon.boots[serial]? = some boot)
    (phase : boot.request = .started) (now : Int) :
    Proceeds daemon event (daemon.handOver serial boot now) := by
  have awake : ¬ boot.IsDormant := Boot.not_isDormant_of_holds (by rw [phase]; rfl)
  rcases daemon.handOver_cases serial boot now with same | same <;>
  · rw [same]
    refine .course serial boot _ found ?_ rfl
    exact Boot.pursues_request awake _ _ _ nofun nofun

/-- Every step lets the requests proceed in one of these ways. -/
theorem proceeds_of_rule (rule : Rule daemon event next) : Proceeds daemon event next := by
  cases rule with
  | submit draft => exact .arrival draft rfl
  | reserve draws time found phase => exact .judgement _ _ draws time found phase rfl
  | prepare found phase =>
    refine .course _ _ _ found ?_ rfl
    refine Boot.pursues_request (Boot.not_isDormant_of_holds (by rw [phase]; rfl)) _ _ _ ?_ ?_ <;>
    split <;> exact nofun
  | rollBack found phase | announce found phase =>
    refine .course _ _ _ found ?_ rfl
    exact Boot.pursues_request (Boot.not_isDormant_of_holds (by rw [phase]; rfl)) _ _ _ nofun nofun
  | launch outcome found phase => exact proceeds_launch found phase outcome
  | handOver now found phase => exact proceeds_handOver found phase now
  | answer found phase settled =>
    refine .course _ _ _ found ?_ rfl
    exact Boot.pursues_request (Boot.not_isDormant_of_waiting phase) _ _ _ nofun nofun
  | strike found phase | notice found phase =>
    exact .course _ _ _ found
      (Boot.pursues_others (Boot.not_isDormant_of_race rfl phase.ne_absent) _ _ _) rfl
  | hear _ found phase | fallSilent found phase | recordAddress found phase
  | settleAddress found phase | settleDeadline found phase | markFailed found phase =>
    exact .course _ _ _ found
      (Boot.pursues_others (Boot.not_isDormant_of_race phase nofun) _ _ _) rfl
  | exit found phase | deregister found phase | settleExit found phase
  | clearConsole found phase | finish found phase =>
    exact .course _ _ _ found
      (Boot.pursues_others (Boot.not_isDormant_of_reaper phase nofun) _ _ _) rfl
  | stop | shutDown | deleteImage | disturb => exact .aside rfl
  | listImages => exact .aside boots_listImages
  | takeImage channel version => exact .aside (boots_takeImage channel version)

/-- The requests after a judgement. -/
theorem boots_reserve (serial : Nat) (boot : Boot) (draws : Nat → Uuid) (time : UInt64) :
    (daemon.reserve serial boot draws time).boots =
      daemon.boots.set serial
        (boot.ruled (daemon.admission serial boot draws time).outcome) := rfl

/-- No step changes the drafts of the requests that are there. -/
theorem Proceeds.drafts (proceeds : Proceeds daemon event next) :
    (∃ draft, next.boots.map (·.draft) = daemon.boots.map (·.draft) ++ [draft]) ∨
      next.boots.map (·.draft) = daemon.boots.map (·.draft) := by
  have kept : ∀ {serial : Nat} {boot after : Boot}, daemon.boots[serial]? = some boot →
      after.draft = boot.draft → next.boots = daemon.boots.set serial after →
      next.boots.map (·.draft) = daemon.boots.map (·.draft) := by
    intro serial boot after found same boots
    have there : (daemon.boots.map (·.draft))[serial]? = some boot.draft := by
      rw [List.getElem?_map, found]
      rfl
    obtain ⟨inside, there⟩ := List.getElem?_eq_some_iff.mp there
    rw [boots, List.map_set, same, ← there, List.set_getElem_self]
  cases proceeds with
  | arrival draft boots =>
    refine .inl ⟨draft, ?_⟩
    rw [boots, List.map_append]
    rfl
  | judgement serial boot draws time found phase judged =>
    refine .inr (kept found ?_ (judged ▸ boots_reserve serial boot draws time))
    cases (daemon.admission serial boot draws time).outcome <;> rfl
  | course serial boot after found onward boots => exact .inr (kept found onward.draft boots)
  | aside boots => exact .inr (congrArg _ boots)

end Daemon

/-! ### Records and their drafts -/

/-- The record was made of the draft under the given settings: its identity is settled, and its
address was given for this identity. -/
def Vm.IsMadeOf (setup : Setup) (vm draft : Vm) : Prop :=
  ∃ identity time asked, IsSettled identity.uuid ∧
    setup.macs asked identity.uuid = .ok identity.mac ∧
    vm = Shared.enrol (setup.settings.fit draft) identity time

/-- The record of a request was made of its draft, if somebody works for the request. -/
inductive Boot.Enrolled (setup : Setup) (boot : Boot) : Prop
  | dormant (dormant : boot.IsDormant)
  | admitted (begun : boot.request ≠ .arrived) (made : boot.vm.IsMadeOf setup boot.draft)

/-- A request that somebody works for has its record. -/
theorem Boot.Enrolled.isMadeOf {setup : Setup} {boot : Boot} (enrolled : boot.Enrolled setup)
    (awake : ¬ boot.IsDormant) : boot.vm.IsMadeOf setup boot.draft := by
  cases enrolled with
  | dormant dormant => exact absurd dormant awake
  | admitted begun made => exact made

/-- Under a setup that derives addresses, a record made of a draft carries a UUID. -/
theorem Vm.IsMadeOf.isIdentified {setup : Setup} {vm draft : Vm} (made : vm.IsMadeOf setup draft)
    (macs : setup.macs = MacSource.ofOctets) : vm.IsIdentified := by
  obtain ⟨identity, time, asked, settled, derived, rfl⟩ := made
  rw [macs] at derived
  exact isIdentified_of_derive settled derived

namespace Daemon

variable {daemon next : Daemon} {event : Event}

/-- The record of every request that somebody works for was made of its draft. -/
def Enrolled (daemon : Daemon) : Prop :=
  ∀ (serial : Nat) (boot : Boot), daemon.boots[serial]? = some boot → boot.Enrolled daemon.setup

/-- What is admitted was made of the draft. -/
theorem isMadeOf_of_admission {serial : Nat} {boot : Boot} {draws : Nat → Uuid} {time : UInt64}
    {vm : Vm} (outcome : (daemon.admission serial boot draws time).outcome = .admitted vm) :
    vm.IsMadeOf daemon.setup boot.draft := by
  obtain ⟨-, -, ⟨identity, search, rfl⟩, -, -⟩ := Shared.accept_eq_admitted outcome
  obtain ⟨settled, before, derived⟩ := tryCandidates_eq_ok (isSettled_normalize _) search
  exact ⟨identity, time, daemon.derivations + before, settled, derived, rfl⟩

/-- A request that is judged is admitted with a record made of its draft, or nobody works for
it. -/
theorem enrolled_of_judgement {setup : Setup} {serial : Nat} {boot : Boot} {draws : Nat → Uuid}
    {time : UInt64} (same : setup = daemon.setup) (phase : boot.request = .arrived)
    (enrolled : boot.Enrolled daemon.setup) :
    (boot.ruled (daemon.admission serial boot draws time).outcome).Enrolled setup := by
  subst same
  cases enrolled with
  | admitted begun made => exact absurd phase begun
  | dormant dormant =>
    obtain ⟨race, reaper, -⟩ := dormant
    cases outcome : (daemon.admission serial boot draws time).outcome with
    | admitted vm => exact .admitted nofun (isMadeOf_of_admission outcome)
    | refused error => exact .dormant ⟨race, reaper, .inr (.inr ⟨error, rfl⟩)⟩
    | broken => exact .dormant ⟨race, reaper, .inr (.inl rfl)⟩

theorem Enrolled.step (enrolled : daemon.Enrolled) (rule : Rule daemon event next) :
    next.Enrolled := by
  have setup := setup_of_rule rule
  intro serial after found
  cases proceeds_of_rule rule with
  | arrival draft boots =>
    rw [boots, List.getElem?_append] at found
    split at found
    · rw [setup]
      exact enrolled serial after found
    · obtain rfl := List.mem_singleton.mp (List.mem_of_getElem? found)
      exact .dormant ⟨rfl, rfl, .inl rfl⟩
  | judgement place boot draws time present phase judged =>
    rw [judged, boots_reserve, boots_set present] at found
    split at found
    · obtain rfl := Option.some.inj found
      exact enrolled_of_judgement setup phase (enrolled place boot present)
    · rw [setup]
      exact enrolled serial after found
  | course place boot later present onward boots =>
    rw [boots, boots_set present] at found
    rw [setup]
    split at found
    · obtain rfl := Option.some.inj found
      cases enrolled place boot present with
      | dormant dormant => exact absurd dormant onward.awake
      | admitted begun made =>
        exact .admitted (onward.begun begun) (onward.vm ▸ onward.draft ▸ made)
    · exact enrolled serial after found
  | aside boots =>
    rw [setup]
    exact enrolled serial after (boots ▸ found)

theorem enrolled_initial (setup : Setup) (tree : Tree) : (initial setup tree).Enrolled :=
  fun _ _ found => nomatch found

theorem enrolled_of_reachable {setup : Setup} {tree : Tree}
    (reached : Reachable (initial setup tree) daemon) : daemon.Enrolled := by
  induction reached with
  | start => exact enrolled_initial setup tree
  | step event _ stepped inductionHypothesis =>
    exact inductionHypothesis.step (rule_of_step? stepped)

end Daemon

end VmFleet
