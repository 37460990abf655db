/-
This file proves how time passes in a rehearsal. Whatever is asked of a fleet, what
follows is a passage: at one instant what is due happens, and the clock moves only
once nothing is due, and never past a moment that somebody waits for. So what a
single event and a single move of the clock keep is kept by every history. The clock
is also never stuck: it reaches the limit it was given, and who waits for an answer
gets one if there is a moment left to wait for.
-/

import VmFleet.Proofs.Rehearsal.Course
import VmFleet.Rehearsal.History

namespace VmFleet.Rehearsal

theorem earliest_eq_some_iff {moments : List (Option Nat)} {moment : Nat} :
    earliest moments = some moment ↔
      some moment ∈ moments ∧ ∀ other, some other ∈ moments → moment ≤ other := by
  unfold earliest
  rw [List.min?_eq_some_iff]
  simp only [List.mem_filterMap, id_eq, exists_eq_right]

theorem earliest_eq_none_iff {moments : List (Option Nat)} :
    earliest moments = none ↔ ∀ moment, some moment ∉ moments := by
  unfold earliest
  rw [List.min?_eq_none_iff, List.filterMap_eq_nil_iff]
  constructor
  · intro never moment member
    exact nomatch never _ member
  · intro never moment member
    cases moment with
    | none => rfl
    | some moment => exact absurd member (never moment)

/-- Of a moment that may have come and one that comes no earlier, the former is first. -/
theorem earliest_pair {moment : Option Nat} {last : Nat}
    (before : ∀ time, moment = some time → time ≤ last) :
    earliest [moment, some last] = some (moment.getD last) := by
  refine earliest_eq_some_iff.mpr ?_
  cases moment with
  | none =>
    refine ⟨by simp, fun other member => ?_⟩
    simp only [List.mem_cons, reduceCtorEq, List.not_mem_nil, or_false, false_or] at member
    exact Nat.le_of_eq (Option.some.inj member).symm
  | some time =>
    refine ⟨List.mem_cons_self, fun other member => ?_⟩
    simp only [List.mem_cons, List.not_mem_nil, or_false, Option.some.injEq] at member
    rcases member with rfl | rfl
    · exact Nat.le_refl _
    · exact before time rfl

namespace Fleet

variable {fleet later : Fleet} {serial : Nat} {boot : Boot} {event : Event}

/-! ### The moments that are waited for -/

/-- A moment that a request waits for whose runner was started. -/
inductive Awaits (fleet : Fleet) (boot : Boot) (guest : Guest) : Option Nat → Prop
  | report (race : boot.race = .listening) : Awaits fleet boot guest guest.reportsAt
  | silence (race : boot.race = .listening) : Awaits fleet boot guest guest.silentAt
  | deadline (race : boot.race.IsWaiting) : Awaits fleet boot guest (some (fleet.deadline guest))
  | ending (reaper : boot.reaper = .watching) : Awaits fleet boot guest guest.endsAt
  | trailing (reaper : boot.reaper = .grace) : Awaits fleet boot guest (fleet.graceEnds guest)

theorem mem_momentsOf_iff {moment : Option Nat} :
    moment ∈ fleet.momentsOf serial boot ↔
      ∃ guest, fleet.guest? serial = some guest ∧ fleet.Awaits boot guest moment := by
  unfold momentsOf
  cases running : fleet.guest? serial with
  | none => simp
  | some guest =>
    simp only [Option.some.injEq, exists_eq_left', List.mem_append]
    constructor
    · rintro (race | reaper)
      · split at race
        · rename_i listening
          simp only [List.mem_cons, List.not_mem_nil, or_false] at race
          rcases race with rfl | rfl | rfl
          · exact .report listening
          · exact .silence listening
          · exact .deadline (.inl listening)
        · rename_i deaf
          obtain rfl := List.mem_singleton.mp race
          exact .deadline (.inr deaf)
        · cases race
      · split at reaper
        · rename_i watching
          obtain rfl := List.mem_singleton.mp reaper
          exact .ending watching
        · rename_i grace
          obtain rfl := List.mem_singleton.mp reaper
          exact .trailing grace
        · cases reaper
    · intro awaits
      cases awaits with
      | report race | silence race =>
        rw [race]
        simp
      | deadline race => rcases race with race | race <;> simp [race]
      | ending reaper | trailing reaper =>
        rw [reaper]
        simp

theorem not_reached {moment : Option Nat} (early : ¬ fleet.reached moment = true) {time : Nat}
    (same : moment = some time) : fleet.now < time := by
  subst same
  simpa [reached] using early

/-- A request to which nothing is due waits for moments that have not come. -/
theorem Awaits.not_reached {guest : Guest} {moment : Option Nat}
    (awaits : fleet.Awaits boot guest moment) (running : fleet.guest? serial = some guest)
    (idle : fleet.next? serial boot = none) : ¬ fleet.reached moment = true := by
  obtain ⟨-, race, reaper⟩ := next?_eq_none_iff.mp idle
  simp only [raceEvent?, reaperEvent?, running, Option.bind_eq_bind, Option.bind_some] at race reaper
  intro come
  cases awaits with
  | report listening | silence listening => grind
  | deadline waiting => rcases waiting with phase | phase <;> grind
  | ending watching => simp [watching, come] at reaper
  | trailing grace => simp [grace, come] at reaper

theorem lt_of_mem_momentsOf (idle : fleet.next? serial boot = none) {moment : Nat}
    (waits : some moment ∈ fleet.momentsOf serial boot) : fleet.now < moment := by
  obtain ⟨guest, running, awaits⟩ := mem_momentsOf_iff.mp waits
  exact Fleet.not_reached (awaits.not_reached running idle) rfl

/-- Nobody waits for anything before a moment. -/
def IsFreeUntil (fleet : Fleet) (moment : Nat) : Prop :=
  ∀ serial boot, fleet.daemon.boots[serial]? = some boot →
    ∀ other, some other ∈ fleet.momentsOf serial boot → moment ≤ other

theorem nextMoment?_eq_some {moment : Nat} (next : fleet.nextMoment? = some moment) :
    fleet.IsFreeUntil moment ∧ ∃ serial boot, fleet.daemon.boots[serial]? = some boot ∧
      some moment ∈ fleet.momentsOf serial boot := by
  obtain ⟨member, first⟩ := earliest_eq_some_iff.mp next
  refine ⟨fun serial boot found other waits => first other (List.mem_flatMap.mpr ?_), ?_⟩
  · exact ⟨(boot, serial), List.mem_zipIdx_iff_getElem?.mpr found, waits⟩
  · obtain ⟨⟨boot, serial⟩, place, waits⟩ := List.mem_flatMap.mp member
    exact ⟨serial, boot, List.mem_zipIdx_iff_getElem?.mp place, waits⟩

theorem nextMoment?_eq_none (never : fleet.nextMoment? = none)
    (found : fleet.daemon.boots[serial]? = some boot) (moment : Nat) :
    some moment ∉ fleet.momentsOf serial boot := fun waits =>
  earliest_eq_none_iff.mp never moment
    (List.mem_flatMap.mpr ⟨(boot, serial), List.mem_zipIdx_iff_getElem?.mpr found, waits⟩)

/-- At the next moment something is due. -/
theorem due?_at_nextMoment {moment : Nat} (next : fleet.nextMoment? = some moment) :
    { fleet with now := moment }.due? ≠ none := by
  intro idle
  obtain ⟨-, serial, boot, found, waits⟩ := nextMoment?_eq_some next
  exact Nat.lt_irrefl moment
    (lt_of_mem_momentsOf (due?_eq_none_iff.mp idle serial boot found) waits)

/-! ### Passages -/

/-- What a fleet can become without being asked for anything. -/
inductive Passes (start : Fleet) : Fleet → Prop
  | start : Passes start start
  /-- What is due happens. -/
  | happen {fleet : Fleet} {serial : Nat} {boot : Boot} {event : Event}
    (passed : Passes start fleet) (due : fleet.due? = some (serial, boot, event)) :
    Passes start (fleet.happen serial boot event)
  /-- Nothing is due, and the clock moves on. -/
  | wait {fleet : Fleet} {moment : Nat} (passed : Passes start fleet) (rest : fleet.due? = none)
    (onward : fleet.now ≤ moment) (free : fleet.IsFreeUntil moment) :
    Passes start { fleet with now := moment }

namespace Passes

theorem trans {start middle : Fleet} (first : Passes start middle) (second : Passes middle later) :
    Passes start later := by
  induction second with
  | start => exact first
  | happen _ due inductionHypothesis => exact .happen inductionHypothesis due
  | wait _ rest onward free inductionHypothesis => exact .wait inductionHypothesis rest onward free

/-- What an event and a move of the clock keep, a passage keeps. -/
theorem keeps (Holds : Fleet → Prop)
    (event : ∀ {fleet serial boot event}, Holds fleet →
      fleet.due? = some (serial, boot, event) → Holds (fleet.happen serial boot event))
    (clock : ∀ {fleet moment}, Holds fleet → fleet.due? = none → fleet.now ≤ moment →
      fleet.IsFreeUntil moment → Holds { fleet with now := moment })
    {start : Fleet} (first : Holds start) (passed : Passes start later) : Holds later := by
  induction passed with
  | start => exact first
  | happen _ due inductionHypothesis => exact event inductionHypothesis due
  | wait _ rest onward free inductionHypothesis =>
    exact clock inductionHypothesis rest onward free

theorem owned {start : Fleet} (owned : start.daemon.Owned) (passed : Passes start later) :
    later.daemon.Owned :=
  keeps (fun fleet => fleet.daemon.Owned) owned_happen (fun owned _ _ _ => owned) owned
    passed

theorem length_boots {start : Fleet} (passed : Passes start later) :
    later.daemon.boots.length = start.daemon.boots.length :=
  keeps (fun fleet => fleet.daemon.boots.length = start.daemon.boots.length)
    (fun same due => (length_boots_happen due).trans same) (fun same _ _ _ => same) rfl passed

end Passes

theorem passes_settleWithin (events : Nat) (fleet : Fleet) :
    Passes fleet (settleWithin events fleet) := by
  induction events generalizing fleet with
  | zero => exact .start
  | succ events inductionHypothesis =>
    unfold settleWithin
    split
    · rename_i due
      exact (Passes.happen .start due).trans (inductionHypothesis _)
    · exact .start

/-- Doing what is due is a passage. -/
theorem passes_settle (fleet : Fleet) : Passes fleet fleet.settle :=
  passes_settleWithin _ fleet

/-! ### Letting time pass -/

/-- The clock jumps to a moment before which nobody waits, and what is due there is done. -/
theorem passes_jump (rest : fleet.due? = none) {limit : Option Nat} {moment : Nat}
    (next : earliest [fleet.nextMoment?, limit] = some moment) :
    Passes fleet (settle { fleet with now := max fleet.now moment }) := by
  refine (Passes.wait .start rest (Nat.le_max_left _ _) ?_).trans (passes_settle _)
  intro serial boot found other waits
  have first := (earliest_eq_some_iff.mp next).2
  refine Nat.max_le.mpr ⟨Nat.le_of_lt (lt_of_mem_momentsOf ?_ waits), ?_⟩
  · exact due?_eq_none_iff.mp rest serial boot found
  · cases soonest : fleet.nextMoment? with
    | none => exact absurd waits (nextMoment?_eq_none soonest found other)
    | some moment' =>
      exact Nat.le_trans (first moment' (by simp [soonest]))
        ((nextMoment?_eq_some soonest).1 serial boot found other waits)

/-- Letting time pass is a passage to rest. -/
theorem passes_passWithin (goal : Fleet → Bool) (limit : Option Nat) (moments : Nat)
    (owned : fleet.daemon.Owned) (rest : fleet.due? = none) :
    Passes fleet (passWithin goal limit moments fleet).1 ∧
      (passWithin goal limit moments fleet).1.due? = none := by
  induction moments generalizing fleet with
  | zero => exact ⟨.start, rest⟩
  | succ moments inductionHypothesis =>
    unfold passWithin
    split
    · exact ⟨.start, rest⟩
    · split
      · exact ⟨.start, rest⟩
      · rename_i moment next
        have jump := passes_jump rest next
        have still : (settle { fleet with now := max fleet.now moment }).due? = none :=
          due?_settle { fleet with now := max fleet.now moment } owned
        dsimp only
        split
        · exact ⟨jump, still⟩
        · obtain ⟨onward, end'⟩ := inductionHypothesis (jump.owned owned) still
          exact ⟨jump.trans onward, end'⟩

/-- Time passes until the goal is reached or the limit has come, unless nothing is left to wait
for. -/
theorem passWithin_ends (goal : Fleet → Bool) (limit : Option Nat) (moments : Nat)
    (owned : fleet.daemon.Owned) (rest : fleet.due? = none)
    (ahead : ∀ time, limit = some time → fleet.now ≤ time) (enough : fleet.rank < moments) :
    goal (passWithin goal limit moments fleet).1 = true ∨
      limit = some (passWithin goal limit moments fleet).1.now ∨
      limit = none ∧ (passWithin goal limit moments fleet).1.nextMoment? = none := by
  induction moments generalizing fleet with
  | zero => exact absurd enough (Nat.not_lt_zero _)
  | succ moments inductionHypothesis =>
    unfold passWithin
    split
    · rename_i done
      exact .inl done
    split
    · rename_i never
      have none := earliest_eq_none_iff.mp never
      refine .inr (.inr ⟨?_, ?_⟩)
      · cases limit with
        | none => rfl
        | some time => exact absurd (by simp) (none time)
      · cases soonest : fleet.nextMoment? with
        | none => rfl
        | some moment => exact absurd (by simp [soonest]) (none moment)
    · rename_i moment next
      obtain ⟨member, first⟩ := earliest_eq_some_iff.mp next
      dsimp only
      split
      · rename_i last
        refine .inr (.inl ?_)
        rw [← last]
        show some moment = some (settle _).now
        unfold settle
        rw [now_settleWithin, Nat.max_eq_right (ahead moment last.symm)]
      · rename_i more
        -- the moment is one that a request waits for, so something is due there
        have soonest : fleet.nextMoment? = some moment := by
          simp only [List.mem_cons, List.not_mem_nil, or_false] at member
          exact (member.resolve_right more).symm
        have later : fleet.now ≤ moment := by
          obtain ⟨-, serial, boot, found, waits⟩ := nextMoment?_eq_some soonest
          exact Nat.le_of_lt
            (lt_of_mem_momentsOf (due?_eq_none_iff.mp rest serial boot found) waits)
        have jump := passes_jump rest next
        have still : (settle { fleet with now := max fleet.now moment }).due? = none :=
          due?_settle { fleet with now := max fleet.now moment } owned
        refine inductionHypothesis (jump.owned owned) still (fun time same => ?_) ?_
        · show (settle _).now ≤ time
          unfold settle
          rw [now_settleWithin]
          exact Nat.max_le.mpr ⟨ahead time same, first time (by simp [same])⟩
        · rw [Nat.max_eq_right later]
          have nearer := rank_settle_lt (due?_at_nextMoment soonest)
          have same : { fleet with now := moment }.rank = fleet.rank := rfl
          omega

/-- Waiting for a request ends when it is over, unless nothing is left to wait for. -/
theorem await_ends (owned : fleet.daemon.Owned) (rest : fleet.due? = none) (serial : Nat) :
    (fleet.await serial).isOver serial = true ∨ (fleet.await serial).nextMoment? = none := by
  have ends := passWithin_ends (fun later => later.isOver serial) none
    (eventsOfRequest * fleet.daemon.boots.length + 2) owned rest nofun
    (by have := rank_le owned; omega)
  rcases ends with done | never | ⟨-, never⟩
  · exact .inl done
  · cases never
  · exact .inr never

end Fleet

end VmFleet.Rehearsal
