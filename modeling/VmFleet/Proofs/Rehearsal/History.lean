/-
This file takes the actions of a history apart. An action does one thing at once: a
request arrives, machines are asked to end, or something happens that concerns no
machine. What follows is a passage to rest. So whatever these three onsets and a
passage keep holds after every history.
-/

import VmFleet.Proofs.Rehearsal.Passage

namespace VmFleet

namespace Daemon

/-! ### Operations that concern no machine -/

/-- Two daemons with the same machines, requests and settings. -/
structure Alike (left right : Daemon) : Prop where
  setup : left.setup = right.setup
  boots : left.boots = right.boots
  registry : left.shared.registry = right.shared.registry

theorem Alike.trans {first second third : Daemon} (left : Alike first second)
    (right : Alike second third) : Alike first third :=
  ⟨left.setup.trans right.setup, left.boots.trans right.boots, left.registry.trans right.registry⟩

theorem Alike.owned {left right : Daemon} (alike : Alike left right) (owned : right.Owned) :
    left.Owned := by
  have deeds : left.deeds = right.deeds := congrArg Registry.deeds alike.registry
  exact ⟨deeds ▸ owned.unambiguous, alike.boots ▸ owned.phased,
    alike.boots ▸ deeds ▸ owned.held, alike.boots ▸ deeds ▸ owned.owner⟩

variable (daemon : Daemon)

theorem alike_listImages : Alike daemon.listImages.1 daemon := by
  obtain ⟨tree, media, same⟩ := listImages_eq daemon
  rw [same]
  exact ⟨rfl, rfl, rfl⟩

theorem alike_takeImage (channel version : String) :
    Alike (daemon.takeImage channel version).1 daemon := by
  obtain ⟨media, same⟩ := takeImage_eq daemon channel version
  rw [same]
  exact ⟨rfl, rfl, rfl⟩

theorem alike_removeImage (channel version : String) :
    Alike (daemon.removeImage channel version).1 daemon := by
  unfold removeImage
  have taken := daemon.alike_takeImage channel version
  split
  · rename_i middle error same
    rw [same] at taken
    exact taken
  · rename_i middle version same
    rw [same] at taken
    have deleted : Alike (middle.deleteImage channel version).1 middle := ⟨rfl, rfl, rfl⟩
    split
    · rename_i later error gone
      rw [gone] at deleted
      exact deleted.trans taken
    · rename_i later gone
      rw [gone] at deleted
      exact (later.alike_listImages.trans deleted).trans taken

end Daemon

namespace Rehearsal.Fleet

variable {fleet later : Fleet}

/-! ### What an action does at once -/

/-- The identities of the machines that an action asks to end. -/
def asked (fleet : Fleet) : Action → List String
  | .stop targets => (fleet.daemon.stop targets).2
  | .shutDown => fleet.daemon.shutDown.2
  | _ => []

/-- The machines that an action names are asked to end, and nothing else happens. -/
structure Halts (fleet : Fleet) (action : Action) (identities : List String) (daemon : Daemon) :
    Prop where
  named : fleet.asked action = (fleet.daemon.shared.registry.halt identities).2
  setup : daemon.setup = fleet.daemon.setup
  boots : daemon.boots = fleet.daemon.boots
  registry : daemon.shared.registry = (fleet.daemon.shared.registry.halt identities).1

/-- How an action begins. -/
inductive Onset (fleet : Fleet) (action : Action) : Fleet → Prop
  /-- A request arrives. -/
  | arrival (draft : Vm) (nobody : fleet.asked action = []) :
    Onset fleet action { fleet with daemon := fleet.daemon.submit draft }
  /-- Machines are asked to end. -/
  | halt (identities : List String) (daemon : Daemon)
    (halts : fleet.Halts action identities daemon) :
    Onset fleet action (noteHalts { fleet with daemon })
  /-- Something happens that concerns no machine. -/
  | aside (next : Fleet) (nobody : fleet.asked action = [])
    (alike : Daemon.Alike next.daemon fleet.daemon) (now : next.now = fleet.now)
    (scripts : next.scripts = fleet.scripts) (guests : next.guests = fleet.guests)
    (answeredAt : next.answeredAt = fleet.answeredAt) : Onset fleet action next

theorem Onset.owned {action : Action} (onset : Onset fleet action later)
    (owned : fleet.daemon.Owned) : later.daemon.Owned := by
  cases onset with
  | arrival draft nobody => exact owned.step (Daemon.step?_of_rule (.submit draft))
  | halt identities daemon halts =>
    have deeds : daemon.deeds = fleet.daemon.deeds := by
      rw [Daemon.deeds, halts.registry, Registry.deeds_halt]
      rfl
    have turn : Daemon.Turn fleet.daemon .shutDown daemon := .aside rfl halts.boots deeds
    exact owned.turn turn
  | aside _ nobody alike now scripts guests answeredAt => exact alike.owned owned

/-- What is due depends on the requests, the runners and the clock alone. -/
theorem due?_eq_none_of_aside (rest : fleet.due? = none)
    (alike : Daemon.Alike later.daemon fleet.daemon) (now : later.now = fleet.now)
    (guests : later.guests = fleet.guests) : later.due? = none := by
  refine due?_eq_none_iff.mpr fun serial boot found => ?_
  rw [alike.boots] at found
  obtain ⟨request, race, reaper⟩ :=
    next?_eq_none_iff.mp (due?_eq_none_iff.mp rest serial boot found)
  refine next?_eq_none_iff.mpr ⟨?_, ?_, ?_⟩
  · unfold requestEvent? at request ⊢
    split at request <;> first | cases request | skip
    · exact request
    · rfl
    · rfl
    · rfl
  · unfold raceEvent? guest? reached deadline at race ⊢
    rw [guests, now, alike.setup]
    exact race
  · unfold reaperEvent? guest? reached graceEnds at reaper ⊢
    rw [guests, now, alike.setup]
    exact reaper

/-- An action begins with its onset, and what follows is a passage to rest. -/
def Unfolds (fleet : Fleet) (action : Action) : Prop :=
  ∃ onset, Onset fleet action onset ∧ Passes onset (fleet.act action).1 ∧
    (fleet.act action).1.due? = none

variable {action : Action}

/-- A change that concerns no machine leaves the fleet at rest. -/
theorem unfolds_aside (rest : fleet.due? = none) (nobody : fleet.asked action = [])
    (alike : Daemon.Alike (fleet.act action).1.daemon fleet.daemon)
    (now : (fleet.act action).1.now = fleet.now)
    (scripts : (fleet.act action).1.scripts = fleet.scripts)
    (guests : (fleet.act action).1.guests = fleet.guests)
    (answeredAt : (fleet.act action).1.answeredAt = fleet.answeredAt) : Unfolds fleet action :=
  ⟨_, .aside _ nobody alike now scripts guests answeredAt, .start,
    due?_eq_none_of_aside rest alike now guests⟩

/-- Letting time pass changes nothing at once. -/
theorem unfolds_passWithin (owned : fleet.daemon.Owned) (rest : fleet.due? = none)
    (nobody : fleet.asked action = []) (goal : Fleet → Bool) (limit : Option Nat) (moments : Nat)
    (same : (fleet.act action).1 = (passWithin goal limit moments fleet).1) :
    Unfolds fleet action := by
  have passage := passes_passWithin goal limit moments owned rest
  rw [← same] at passage
  exact ⟨fleet, .aside _ nobody ⟨rfl, rfl, rfl⟩ rfl rfl rfl rfl, passage⟩

/-- Machines are asked to end, and what follows from it is done. -/
theorem unfolds_apply (owned : fleet.daemon.Owned) {identities : List String} {daemon : Daemon}
    (halts : fleet.Halts action identities daemon)
    (same : (fleet.act action).1 = fleet.apply daemon) : Unfolds fleet action := by
  have onset : Onset fleet action (noteHalts { fleet with daemon }) :=
    .halt identities daemon halts
  have passage : Passes (noteHalts { fleet with daemon }) (fleet.apply daemon) := passes_settle _
  have still : (fleet.apply daemon).due? = none := due?_settle _ (onset.owned owned)
  rw [← same] at passage still
  exact ⟨_, onset, passage, still⟩

/-- A request arrives, and what is due to it is done. -/
theorem passes_start (owned : fleet.daemon.Owned) (draft : Vm) :
    Passes { fleet with daemon := fleet.daemon.submit draft } (fleet.start draft).1 ∧
      (fleet.start draft).1.daemon.Owned ∧ (fleet.start draft).1.due? = none := by
  have arrived : (fleet.daemon.submit draft).Owned :=
    owned.step (Daemon.step?_of_rule (.submit draft))
  have passage : Passes { fleet with daemon := fleet.daemon.submit draft } (fleet.start draft).1 :=
    passes_settle _
  exact ⟨passage, passage.owned arrived,
    due?_settle { fleet with daemon := fleet.daemon.submit draft } arrived⟩

theorem unfolds_act (owned : fleet.daemon.Owned) (rest : fleet.due? = none) (action : Action) :
    Unfolds fleet action := by
  cases action with
  | run draft =>
    obtain ⟨passage, orderly, still⟩ := passes_start owned draft
    obtain ⟨onward, ends⟩ := passes_passWithin
      (fun later => later.isOver fleet.daemon.boots.length) none
      (eventsOfRequest * (fleet.start draft).1.daemon.boots.length + 2) orderly still
    exact ⟨_, .arrival draft rfl, passage.trans onward, ends⟩
  | start draft =>
    obtain ⟨passage, -, still⟩ := passes_start owned draft
    exact ⟨_, .arrival draft rfl, passage, still⟩
  | wait serial => exact unfolds_passWithin owned rest rfl _ _ _ rfl
  | advance milliseconds => exact unfolds_passWithin owned rest rfl _ _ _ rfl
  | drain =>
    exact unfolds_passWithin owned rest rfl (fun later => later.daemon.jobs == 0)
      (some (fleet.now + drainLimit)) (eventsOfRequest * fleet.daemon.boots.length + 2) rfl
  | stop targets =>
    have halts : fleet.Halts (.stop targets) (fleet.daemon.shared.registry.select targets)
        (fleet.daemon.stop targets).1 := ⟨rfl, rfl, rfl, rfl⟩
    exact unfolds_apply owned halts rfl
  | shutDown =>
    have halts : fleet.Halts .shutDown (fleet.daemon.shared.registry.select [])
        fleet.daemon.shutDown.1 := ⟨rfl, rfl, rfl, rfl⟩
    exact unfolds_apply owned halts rfl
  | list | identify | disturb | close | forgetCalls =>
    exact unfolds_aside rest rfl ⟨rfl, rfl, rfl⟩ rfl rfl rfl rfl
  | listImages => exact unfolds_aside rest rfl fleet.daemon.alike_listImages rfl rfl rfl rfl
  | removeImage channel version =>
    exact unfolds_aside rest rfl (fleet.daemon.alike_removeImage channel version) rfl rfl rfl rfl

/-! ### Histories -/

/-- What an onset, an event and a move of the clock keep, a history keeps. -/
theorem play_keeps (Holds : Fleet → Prop)
    (onset : ∀ {fleet action later}, Holds fleet → Onset fleet action later → Holds later)
    (event : ∀ {fleet serial boot event}, Holds fleet →
      fleet.due? = some (serial, boot, event) → Holds (fleet.happen serial boot event))
    (clock : ∀ {fleet moment}, Holds fleet → fleet.due? = none → fleet.now ≤ moment →
      fleet.IsFreeUntil moment → Holds { fleet with now := moment })
    (first : Holds fleet) (owned : fleet.daemon.Owned) (rest : fleet.due? = none)
    (history : List Action) : Holds (fleet.play history) := by
  induction history generalizing fleet with
  | nil => exact first
  | cons action history inductionHypothesis =>
    obtain ⟨begun, begins, passed, still⟩ := unfolds_act owned rest action
    have orderly := begins.owned owned
    exact inductionHypothesis (passed.keeps Holds event clock (onset first begins))
      (passed.owned orderly) still

end Rehearsal.Fleet

end VmFleet
