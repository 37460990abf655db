/-
This file follows the requests that break off. A request breaks off where it meets a number
that cannot be told: the sum of the memory, before anything is registered for it, or the
deadline of its boot, when its process has been started and recorded. From then on nothing
happens to it, so it is never answered; and of the two only the second one leaves a machine
behind that nobody looks after. As long as every deadline is told, there is none.
-/

import VmFleet.Proofs.Supervision.Turn

namespace VmFleet

/-- The request broke off. -/
def RequestPhase.isBroken : RequestPhase → Bool
  | .unjudged | .abandoned => true
  | _ => false

/-- A request that broke off has no answer. -/
theorem RequestPhase.isAnswered_of_isBroken {phase : RequestPhase}
    (broken : phase.isBroken = true) : phase.isAnswered = false := by
  cases phase <;> first | rfl | cases broken

/-- A request that broke off has handed its machine over to nobody. -/
theorem RequestPhase.isAlone_of_isBroken {phase : RequestPhase}
    (broken : phase.isBroken = true) : phase.isAlone = true := by
  cases phase <;> first | rfl | cases broken

namespace Daemon

variable {daemon next later : Daemon} {event : Event} {serial : Nat} {boot : Boot}

/-- The requests after one of them was put back. -/
theorem boots_set {boots : List Boot} {serial : Nat} {boot : Boot}
    (found : boots[serial]? = some boot) (after : Boot) (other : Nat) :
    (boots.set serial after)[other]? = if serial = other then some after else boots[other]? := by
  have inside : serial < boots.length := (List.getElem?_eq_some_iff.mp found).1
  rw [List.getElem?_set]
  simp [inside]

/-! ### Nothing happens to a request that broke off -/

/-- A request that broke off, and neither its race nor its reaper is there. -/
structure BrokeOff (daemon : Daemon) (serial : Nat) (boot : Boot) : Prop where
  found : daemon.boots[serial]? = some boot
  request : boot.request.isBroken = true
  race : boot.race = .absent
  reaper : boot.reaper = .absent

/-- What happens to requests in other phases does not happen to this one. -/
theorem BrokeOff.set_of_ne (broke : daemon.BrokeOff serial boot) {other : Nat}
    {going : Boot} (after : Boot) (present : daemon.boots[other]? = some going)
    (differs : going ≠ boot) : (daemon.boots.set other after)[serial]? = some boot := by
  rw [boots_set present, if_neg, broke.found]
  rintro rfl
  exact differs (Option.some.inj (present.symm.trans broke.found))

theorem BrokeOff.rule (broke : daemon.BrokeOff serial boot) (rule : Rule daemon event next) :
    next.BrokeOff serial boot := by
  obtain ⟨found, request, race, reaper⟩ := id broke
  refine ⟨?_, request, race, reaper⟩
  cases rule with
  | submit draft =>
    exact (List.getElem?_append_left (List.getElem?_eq_some_iff.mp found).1).trans found
  | reserve _ _ present phase | prepare present phase | rollBack present phase
  | announce present phase | answer present phase =>
    refine broke.set_of_ne _ present ?_
    rintro rfl
    rw [phase] at request
    cases request
  | @launch other going _ outcome present phase =>
    obtain ⟨tree, same⟩ := launch_eq daemon other going outcome
    rw [same]
    refine broke.set_of_ne _ present ?_
    rintro rfl
    rw [phase] at request
    cases request
  | @handOver other going now present phase =>
    obtain ⟨after, same⟩ := handOver_eq daemon other going now
    rw [same]
    refine broke.set_of_ne _ present ?_
    rintro rfl
    rw [phase] at request
    cases request
  | hear _ present phase | fallSilent present phase | recordAddress present phase
  | settleAddress present phase | settleDeadline present phase | markFailed present phase =>
    refine broke.set_of_ne _ present ?_
    rintro rfl
    rw [race] at phase
    cases phase
  | strike present phase | notice present phase =>
    refine broke.set_of_ne _ present ?_
    rintro rfl
    exact phase.ne_absent race
  | exit present phase | deregister present phase | settleExit present phase
  | clearConsole present phase | finish present phase =>
    refine broke.set_of_ne _ present ?_
    rintro rfl
    rw [reaper] at phase
    cases phase
  | listImages => exact (congrArg (·[serial]?) boots_listImages).trans found
  | takeImage channel version =>
    exact (congrArg (·[serial]?) (boots_takeImage channel version)).trans found
  | stop | shutDown | deleteImage | disturb => exact found

theorem BrokeOff.run (broke : daemon.BrokeOff serial boot) {events : List Event}
    (ran : daemon.run? events = some later) : later.BrokeOff serial boot :=
  run?_keeps (BrokeOff · serial boot) (fun kept stepped => kept.rule (rule_of_step? stepped))
    broke ran

/-! ### Where requests break off -/

/-- A request breaks off in an event: its sum was not told, or its deadline was not. -/
inductive BreaksOff (daemon : Daemon) (event : Event) (serial : Nat) : RequestPhase → Prop
  | unjudged (boot : Boot) (draws : Nat → Uuid) (time : UInt64)
    (found : daemon.boots[serial]? = some boot) (phase : boot.request = .arrived)
    (asked : event = .reserve serial draws time)
    (outcome : (daemon.admission serial boot draws time).outcome = .broken) :
    BreaksOff daemon event serial .unjudged
  | abandoned (now : Int) (asked : event = .handOver serial now)
    (untold : Config.timeLimit ≤ now + daemon.setup.settings.bootTimeout.toNat) :
    BreaksOff daemon event serial .abandoned

/-- A request is the one that was put in place, or it was there before. -/
theorem origin_of_set {place : Nat} {going after : Boot}
    (boots : next.boots = daemon.boots.set place going)
    (present : next.boots[serial]? = some after) :
    (serial = place ∧ after = going) ∨ daemon.boots[serial]? = some after := by
  rw [boots, List.getElem?_set] at present
  split at present
  · rename_i same
    split at present
    · exact .inl ⟨same.symm, (Option.some.inj present).symm⟩
    · cases present
  · exact .inr present

/-- A request that has broken off did so before or does so in this event. -/
theorem breaksOff_of_rule {after : Boot} (rule : Rule daemon event next)
    (present : next.boots[serial]? = some after) (broken : after.request.isBroken = true) :
    (∃ boot, daemon.boots[serial]? = some boot ∧ boot.request = after.request) ∨
      daemon.BreaksOff event serial after.request := by
  have before : daemon.boots[serial]? = some after →
      ∃ boot, daemon.boots[serial]? = some boot ∧ boot.request = after.request :=
    fun found => ⟨after, found, rfl⟩
  -- what goes on without breaking off is not the request in question
  have whole : ∀ {place : Nat} {going : Boot}, next.boots = daemon.boots.set place going →
      going.request.isBroken = false →
      ∃ boot, daemon.boots[serial]? = some boot ∧ boot.request = after.request := by
    intro place going boots working
    rcases origin_of_set boots present with ⟨rfl, rfl⟩ | found
    · rw [working] at broken
      cases broken
    · exact before found
  -- the race and the reaper leave the phase of the request as it is
  have beside : ∀ {place : Nat} {boot going : Boot}, daemon.boots[place]? = some boot →
      next.boots = daemon.boots.set place going → going.request = boot.request →
      ∃ boot, daemon.boots[serial]? = some boot ∧ boot.request = after.request := by
    intro place boot going found boots same
    rcases origin_of_set boots present with ⟨rfl, rfl⟩ | found
    · exact ⟨boot, found, same.symm⟩
    · exact before found
  cases rule with
  | submit draft =>
    have appended : (daemon.boots ++ [Boot.ofDraft draft])[serial]? = some after := present
    rw [List.getElem?_append] at appended
    split at appended
    · exact .inl (before appended)
    · obtain rfl := List.mem_singleton.mp (List.mem_of_getElem? appended)
      cases broken
  | @reserve place boot draws time found phase =>
    cases outcome : (daemon.admission place boot draws time).outcome with
    | admitted | refused =>
      refine .inl (whole rfl ?_)
      rw [outcome]
      rfl
    | broken =>
      rcases origin_of_set rfl present with ⟨rfl, rfl⟩ | found
      · rw [outcome]
        exact .inr (.unjudged boot draws time found phase rfl outcome)
      · exact .inl (before found)
  | prepare =>
    refine .inl (whole rfl ?_)
    dsimp only
    split <;> rfl
  | @launch place boot plan outcome found phase =>
    obtain ⟨tree, same⟩ := launch_eq daemon place boot outcome
    refine .inl (whole (congrArg (·.boots) same) ?_)
    cases outcome <;> rfl
  | @handOver place boot now found phase =>
    rcases Int.lt_or_le _ _ with told | untold
    · exact .inl (whole (congrArg (·.boots) (handOver_of_told told place boot)) rfl)
    · have same := congrArg (·.boots) (handOver_of_untold untold place boot)
      rcases origin_of_set same present with ⟨rfl, rfl⟩ | found
      · exact .inr (.abandoned now rfl untold)
      · exact .inl (before found)
  | rollBack | announce | answer => exact .inl (whole rfl rfl)
  | hear _ found | fallSilent found | strike found | notice found | recordAddress found
  | settleAddress found | settleDeadline found | markFailed found | exit found
  | deregister found | settleExit found | clearConsole found | finish found =>
    exact .inl (beside found rfl rfl)
  | listImages => exact .inl (before (boots_listImages ▸ present))
  | takeImage channel version => exact .inl (before (boots_takeImage channel version ▸ present))
  | stop | shutDown | deleteImage | disturb => exact .inl (before present)

/-! ### Machines left to themselves -/

/-- No request has left its machine to itself. -/
def Attended (daemon : Daemon) : Prop :=
  ∀ boot ∈ daemon.boots, boot.request ≠ .abandoned

theorem attended_initial (setup : Setup) (tree : Tree) : (initial setup tree).Attended :=
  fun _ member => nomatch member

/-- A machine is only left to itself by a hand-over that cannot tell its deadline. -/
theorem Attended.rule (attended : daemon.Attended) (rule : Rule daemon event next)
    (told : ∀ serial now, event = .handOver serial now →
      now + daemon.setup.settings.bootTimeout.toNat < Config.timeLimit) : next.Attended := by
  intro after member left
  obtain ⟨serial, present⟩ := List.mem_iff_getElem?.mp member
  rcases breaksOff_of_rule rule present (by rw [left]; rfl) with ⟨boot, found, same⟩ | breaks
  · exact attended boot (List.mem_of_getElem? found) (same.trans left)
  · rw [left] at breaks
    cases breaks with
    | abandoned now asked untold => exact Int.not_lt.mpr untold (told serial now asked)

theorem Attended.run {start : Daemon} {events : List Event} (attended : start.Attended)
    (told : ∀ serial now, Event.handOver serial now ∈ events →
      now + start.setup.settings.bootTimeout.toNat < Config.timeLimit)
    (ran : start.run? events = some daemon) : daemon.Attended := by
  induction events generalizing start with
  | nil =>
    obtain rfl := Option.some.inj ran
    exact attended
  | cons event events inductionHypothesis =>
    obtain ⟨next, stepped, rest⟩ := run?_cons_eq_some.mp ran
    have rule := rule_of_step? stepped
    refine inductionHypothesis (attended.rule rule fun serial now same => ?_)
      (fun serial now member => ?_) rest
    · exact told serial now (same ▸ List.mem_cons_self)
    · rw [setup_of_rule rule]
      exact told serial now (List.mem_cons_of_mem _ member)

end Daemon

end VmFleet
