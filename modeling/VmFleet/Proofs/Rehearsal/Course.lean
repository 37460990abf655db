/-
This file proves that a rehearsal comes to rest. At one instant every request does
what is due to it, and each thing that happens brings its request nearer to its end,
so the events an instant is given are enough for everything that is due. The same
count bounds the moments to which the clock can jump before all requests are over.
-/

import VmFleet.Proofs.Supervision.Ownership
import VmFleet.Rehearsal.Fleet

namespace VmFleet

/-! ### How far a request is from its end -/

/-- The events a request can still see before it is answered, with those of the race and the
reaper that it is about to start. -/
def RequestPhase.rank : RequestPhase → Nat
  | .arrived => 15
  | .reserved => 14
  | .planned _ => 13
  | .launching _ => 12
  | .started => 11
  | .undoing _ | .waiting => 1
  | .answered _ | .unjudged | .abandoned => 0

/-- The events a race can still see. -/
def RacePhase.rank : RacePhase → Nat
  | .listening => 4
  | .deaf => 3
  | .heard _ | .struck => 2
  | .recorded _ | .lapsed => 1
  | .absent | .finished => 0

theorem RacePhase.IsWaiting.rank_ge {phase : RacePhase} (waiting : phase.IsWaiting) :
    3 ≤ phase.rank := by
  rcases waiting with rfl | rfl
  · exact Nat.le_succ 3
  · exact Nat.le_refl 3

/-- The events a reaper can still see. -/
def ReaperPhase.rank : ReaperPhase → Nat
  | .watching => 5
  | .exited => 4
  | .deregistered => 3
  | .settled => 2
  | .grace => 1
  | .absent | .finished => 0

/-- The events a request can still see with everything that follows it. -/
def Boot.rank (boot : Boot) : Nat :=
  boot.request.rank + boot.race.rank + boot.reaper.rank

/-- A request that works alone has neither a race nor a reaper, so no request is far from its
end. -/
theorem Boot.rank_le {boot : Boot} (phased : boot.Phased) : boot.rank ≤ 15 := by
  unfold Boot.rank
  cases alone : boot.request.isAlone with
  | true =>
    obtain ⟨race, reaper⟩ := phased alone
    rw [race, reaper]
    cases boot.request <;> simp [RequestPhase.rank, RacePhase.rank, ReaperPhase.rank]
  | false =>
    have request : boot.request.rank ≤ 1 := by
      cases phase : boot.request <;> rw [phase] at alone <;>
        first | exact Nat.le_refl _ | exact Nat.zero_le _ | cases alone
    have race : boot.race.rank ≤ 4 := by
      cases boot.race <;> simp [RacePhase.rank]
    have reaper : boot.reaper.rank ≤ 5 := by
      cases boot.reaper <;> simp [ReaperPhase.rank]
    omega

/-! ### Totals -/

theorem total_le_of_forall {numbers : List Nat} {bound : Nat}
    (bounded : ∀ number ∈ numbers, number ≤ bound) : total numbers ≤ bound * numbers.length := by
  induction numbers with
  | nil => exact Nat.zero_le _
  | cons number numbers inductionHypothesis =>
    have first := bounded number List.mem_cons_self
    have others := inductionHypothesis fun other member => bounded other (.tail _ member)
    rw [total_cons, List.length_cons, Nat.mul_succ]
    omega

/-- One number of a row is replaced, and the total changes by as much as the number does. -/
theorem total_set {numbers : List Nat} {place number : Nat} (found : numbers[place]? = some number)
    (after : Nat) : total (numbers.set place after) + number = total numbers + after := by
  induction numbers generalizing place with
  | nil => cases found
  | cons first numbers inductionHypothesis =>
    cases place with
    | zero =>
      obtain rfl := Option.some.inj found
      simp only [List.set_cons_zero, total_cons]
      omega
    | succ place =>
      have others := inductionHypothesis (List.getElem?_cons_succ ▸ found)
      simp only [List.set_cons_succ, total_cons]
      omega

/-- The request that an event happens to. -/
def Event.subject? : Event → Option Nat
  | .reserve serial _ _ | .prepare serial | .rollBack serial | .announce serial
  | .launch serial _ | .handOver serial _ | .answer serial | .hear serial _ | .fallSilent serial
  | .strike serial | .notice serial | .recordAddress serial | .settleAddress serial
  | .settleDeadline serial | .markFailed serial | .exit serial | .deregister serial
  | .settleExit serial | .clearConsole serial | .finish serial => some serial
  | _ => none

namespace Rehearsal.Fleet

variable {fleet : Fleet} {serial : Nat} {boot : Boot} {event : Event}

/-! ### What is due to one request -/

/-- What happens next to one request. -/
def next? (fleet : Fleet) (serial : Nat) (boot : Boot) : Option Event :=
  ((fleet.requestEvent? serial boot).or (fleet.raceEvent? serial boot)).or
    (fleet.reaperEvent? serial boot)

theorem next?_eq_none_iff :
    fleet.next? serial boot = none ↔ fleet.requestEvent? serial boot = none ∧
      fleet.raceEvent? serial boot = none ∧ fleet.reaperEvent? serial boot = none := by
  unfold next?
  simp [Option.or_eq_none_iff, and_assoc]

/-- A fleet is at rest if nothing is due to any request. -/
theorem due?_eq_none_iff :
    fleet.due? = none ↔
      ∀ serial boot, fleet.daemon.boots[serial]? = some boot → fleet.next? serial boot = none := by
  unfold due?
  rw [List.findSome?_eq_none_iff]
  constructor
  · intro idle serial boot found
    have quiet := idle (boot, serial) (List.mem_zipIdx_iff_getElem?.mpr found)
    exact Option.map_eq_none_iff.mp quiet
  · rintro idle ⟨boot, serial⟩ member
    exact Option.map_eq_none_iff.mpr (idle serial boot (List.mem_zipIdx_iff_getElem?.mp member))

theorem next?_of_due? (due : fleet.due? = some (serial, boot, event)) :
    fleet.daemon.boots[serial]? = some boot ∧ fleet.next? serial boot = some event := by
  obtain ⟨⟨other, place⟩, member, same⟩ := List.exists_of_findSome?_eq_some due
  obtain ⟨happening, next, equal⟩ := Option.map_eq_some_iff.mp same
  obtain ⟨rfl, rfl, rfl⟩ := by simpa only [Prod.mk.injEq] using equal
  exact ⟨List.mem_zipIdx_iff_getElem?.mp member, next⟩

/-! ### Everything that is due can happen -/

/-- An event can happen to a request, and brings it nearer to its end. -/
def Furthers (daemon : Daemon) (serial : Nat) (boot : Boot) (event : Event) : Prop :=
  event.subject? = some serial ∧ ∃ next after, daemon.step? event = some next ∧
    next.boots = daemon.boots.set serial after ∧ after.rank < boot.rank

/-- A runner that is started or refused takes its request out of the launch. -/
theorem furthers_launch {plan : BootPlan} (found : fleet.daemon.boots[serial]? = some boot)
    (phase : boot.request = .launching plan) (outcome : Except FleetError Spawned) :
    Furthers fleet.daemon serial boot (.launch serial outcome) := by
  have taken := Daemon.step?_of_rule (.launch outcome found phase)
  cases outcome with
  | ok spawned =>
    refine ⟨rfl, _, { boot with pid := spawned.pid, request := .started }, taken, ?_, ?_⟩
    · simp only [Daemon.launch]
      split <;> rfl
    · simp [Boot.rank, phase, RequestPhase.rank]
  | error error =>
    refine ⟨rfl, _, _, taken, rfl, ?_⟩
    simp [Boot.rank, phase, RequestPhase.rank]

/-- A process that is handed over or abandoned takes its request out of the start. -/
theorem furthers_handOver (found : fleet.daemon.boots[serial]? = some boot)
    (phase : boot.request = .started) (now : Int) :
    Furthers fleet.daemon serial boot (.handOver serial now) := by
  have taken := Daemon.step?_of_rule (.handOver now found phase)
  rcases fleet.daemon.handOver_cases serial boot now with same | same <;> rw [same] at taken
  · refine ⟨rfl, _, _, taken, rfl, ?_⟩
    simp [Boot.rank, phase, RequestPhase.rank, RacePhase.rank, ReaperPhase.rank]
    omega
  · refine ⟨rfl, _, _, taken, rfl, ?_⟩
    simp [Boot.rank, phase, RequestPhase.rank]

theorem furthers_of_requestEvent? (found : fleet.daemon.boots[serial]? = some boot)
    (due : fleet.requestEvent? serial boot = some event) :
    Furthers fleet.daemon serial boot event := by
  unfold requestEvent? at due
  split at due
  case h_7 phase =>
    split at due
    · cases due
    · rename_i settled
      obtain rfl := Option.some.inj due
      refine ⟨rfl, _, _, Daemon.step?_of_rule (.answer found phase (by simpa using settled)),
        rfl, ?_⟩
      simp [Boot.rank, phase, RequestPhase.rank]
  case h_8 | h_9 | h_10 => cases due
  all_goals
    rename_i phase
    obtain rfl := Option.some.inj due
  case h_1 =>
    refine ⟨rfl, _, _, Daemon.step?_of_rule (.reserve _ _ found phase), rfl, ?_⟩
    unfold Boot.rank Boot.ruled
    split <;> simp [phase, RequestPhase.rank]
  case h_2 =>
    refine ⟨rfl, _, _, Daemon.step?_of_rule (.prepare found phase), rfl, ?_⟩
    unfold Boot.rank
    split <;> simp [phase, RequestPhase.rank]
  case h_3 =>
    refine ⟨rfl, _, _, Daemon.step?_of_rule (.announce found phase), rfl, ?_⟩
    simp [Boot.rank, phase, RequestPhase.rank]
  case h_4 => exact furthers_launch found phase _
  case h_5 =>
    refine ⟨rfl, _, _, Daemon.step?_of_rule (.rollBack found phase), rfl, ?_⟩
    simp [Boot.rank, phase, RequestPhase.rank]
  case h_6 => exact furthers_handOver found phase _

/-- A race that waits goes on in whatever way it is told to. -/
theorem furthers_race {phase : RacePhase} (subject : event.subject? = some serial)
    (waiting : boot.race.IsWaiting)
    (taken : fleet.daemon.step? event =
      some (fleet.daemon.put serial { boot with race := phase })) (nearer : phase.rank ≤ 2) :
    Furthers fleet.daemon serial boot event := by
  refine ⟨subject, _, _, taken, rfl, ?_⟩
  have far := waiting.rank_ge
  unfold Boot.rank
  dsimp only
  omega

theorem furthers_of_raceEvent? (found : fleet.daemon.boots[serial]? = some boot)
    (due : fleet.raceEvent? serial boot = some event) :
    Furthers fleet.daemon serial boot event := by
  obtain ⟨guest, -, due⟩ := Option.bind_eq_some_iff.mp due
  split at due
  case h_1 phase =>
    have waiting : boot.race.IsWaiting := .inl phase
    split at due
    · rename_i settled
      obtain rfl := Option.some.inj due
      exact furthers_race rfl waiting
        (Daemon.step?_of_rule (.notice found waiting (by simpa using settled))) (Nat.zero_le _)
    split at due
    · obtain rfl := Option.some.inj due
      exact furthers_race rfl waiting (Daemon.step?_of_rule (.hear _ found phase)) (Nat.le_refl _)
    split at due
    · obtain rfl := Option.some.inj due
      exact furthers_race rfl waiting (Daemon.step?_of_rule (.strike found waiting)) (Nat.le_refl _)
    split at due
    · obtain rfl := Option.some.inj due
      refine ⟨rfl, _, _, Daemon.step?_of_rule (.fallSilent found phase), rfl, ?_⟩
      simp [Boot.rank, phase, RacePhase.rank]
    · cases due
  case h_2 phase =>
    have waiting : boot.race.IsWaiting := .inr phase
    split at due
    · rename_i settled
      obtain rfl := Option.some.inj due
      exact furthers_race rfl waiting
        (Daemon.step?_of_rule (.notice found waiting (by simpa using settled))) (Nat.zero_le _)
    split at due
    · obtain rfl := Option.some.inj due
      exact furthers_race rfl waiting (Daemon.step?_of_rule (.strike found waiting)) (Nat.le_refl _)
    · cases due
  case h_3 phase =>
    obtain rfl := Option.some.inj due
    refine ⟨rfl, _, _, Daemon.step?_of_rule (.recordAddress found phase), rfl, ?_⟩
    simp [Boot.rank, phase, RacePhase.rank]
  case h_4 phase =>
    obtain rfl := Option.some.inj due
    refine ⟨rfl, _, _, Daemon.step?_of_rule (.settleAddress found phase), rfl, ?_⟩
    simp [Boot.rank, phase, RacePhase.rank]
  case h_5 phase =>
    obtain rfl := Option.some.inj due
    refine ⟨rfl, _, _, Daemon.step?_of_rule (.settleDeadline found phase), rfl, ?_⟩
    unfold Boot.rank
    dsimp only
    split <;> simp [phase, RacePhase.rank]
  case h_6 phase =>
    obtain rfl := Option.some.inj due
    refine ⟨rfl, _, _, Daemon.step?_of_rule (.markFailed found phase), rfl, ?_⟩
    simp [Boot.rank, phase, RacePhase.rank]
  all_goals cases due

theorem furthers_of_reaperEvent? (found : fleet.daemon.boots[serial]? = some boot)
    (due : fleet.reaperEvent? serial boot = some event) :
    Furthers fleet.daemon serial boot event := by
  obtain ⟨guest, -, due⟩ := Option.bind_eq_some_iff.mp due
  split at due
  case h_1 phase =>
    split at due
    · obtain rfl := Option.some.inj due
      refine ⟨rfl, _, _, Daemon.step?_of_rule (.exit found phase), rfl, ?_⟩
      simp [Boot.rank, phase, ReaperPhase.rank]
    · cases due
  case h_5 phase =>
    split at due
    · obtain rfl := Option.some.inj due
      refine ⟨rfl, _, _, Daemon.step?_of_rule (.finish found phase), rfl, ?_⟩
      simp [Boot.rank, phase, ReaperPhase.rank]
    · cases due
  case h_6 | h_7 => cases due
  all_goals
    rename_i phase
    obtain rfl := Option.some.inj due
  case h_2 =>
    refine ⟨rfl, _, _, Daemon.step?_of_rule (.deregister found phase), rfl, ?_⟩
    simp [Boot.rank, phase, ReaperPhase.rank]
  case h_3 =>
    refine ⟨rfl, _, _, Daemon.step?_of_rule (.settleExit found phase), rfl, ?_⟩
    simp [Boot.rank, phase, ReaperPhase.rank]
  case h_4 =>
    refine ⟨rfl, _, _, Daemon.step?_of_rule (.clearConsole found phase), rfl, ?_⟩
    simp [Boot.rank, phase, ReaperPhase.rank]

/-- Whatever is due can happen, and brings its request nearer to its end. -/
theorem furthers_of_next? (found : fleet.daemon.boots[serial]? = some boot)
    (due : fleet.next? serial boot = some event) : Furthers fleet.daemon serial boot event := by
  rcases Option.or_eq_some_iff.mp due with due | ⟨-, due⟩
  · rcases Option.or_eq_some_iff.mp due with due | ⟨-, due⟩
    · exact furthers_of_requestEvent? found due
    · exact furthers_of_raceEvent? found due
  · exact furthers_of_reaperEvent? found due

/-- Nothing is due to a request that broke off. -/
theorem working_of_next? (owned : fleet.daemon.Owned)
    (found : fleet.daemon.boots[serial]? = some boot)
    (due : fleet.next? serial boot = some event) : boot.request.isBroken = false := by
  refine Bool.eq_false_iff.mpr fun broken => ?_
  obtain ⟨race, reaper⟩ :=
    owned.phased serial boot found (RequestPhase.isAlone_of_isBroken broken)
  obtain ⟨-, next, after, stepped, boots, nearer⟩ := furthers_of_next? found due
  have broke : fleet.daemon.BrokeOff serial boot := ⟨found, broken, race, reaper⟩
  have stays := (broke.rule (Daemon.rule_of_step? stepped)).found
  rw [boots, Daemon.boots_set found, if_pos rfl] at stays
  obtain rfl := Option.some.inj stays
  exact Nat.lt_irrefl _ nearer

/-! ### One event -/

/-- What is noted down when an event happens, before the daemon moves. -/
def noted (fleet : Fleet) (serial : Nat) (boot : Boot) : Event → Fleet
  | .reserve .. => fleet.noteAdmission serial boot
  | .launch .. => fleet.noteLaunch serial boot
  | .exit .. => fleet.noteExit serial
  | _ => fleet

theorem happen_eq (fleet : Fleet) (serial : Nat) (boot : Boot) (event : Event) :
    fleet.happen serial boot event =
      (noteHalts { fleet.noted serial boot event with
        daemon := (fleet.daemon.step? event).getD fleet.daemon }).noteAnswer serial := by
  cases event <;> rfl

theorem now_noted (fleet : Fleet) (serial : Nat) (boot : Boot) (event : Event) :
    (fleet.noted serial boot event).now = fleet.now := by
  cases event <;> try rfl
  unfold noted noteLaunch
  dsimp only
  split <;> split <;> rfl

@[simp]
theorem daemon_noteAnswer (fleet : Fleet) (serial : Nat) :
    (fleet.noteAnswer serial).daemon = fleet.daemon := by
  unfold noteAnswer
  dsimp only
  split <;> rfl

@[simp]
theorem now_noteAnswer (fleet : Fleet) (serial : Nat) :
    (fleet.noteAnswer serial).now = fleet.now := by
  unfold noteAnswer
  dsimp only
  split <;> rfl

@[simp]
theorem daemon_happen (fleet : Fleet) (serial : Nat) (boot : Boot) (event : Event) :
    (fleet.happen serial boot event).daemon = (fleet.daemon.step? event).getD fleet.daemon := by
  rw [happen_eq, daemon_noteAnswer]
  rfl

@[simp]
theorem now_happen (fleet : Fleet) (serial : Nat) (boot : Boot) (event : Event) :
    (fleet.happen serial boot event).now = fleet.now := by
  rw [happen_eq, now_noteAnswer]
  exact now_noted fleet serial boot event

/-- The events that all requests together can still see. -/
def rank (fleet : Fleet) : Nat :=
  total (fleet.daemon.boots.map Boot.rank)

/-- A fleet cannot see more events than an instant is given. -/
theorem rank_le (owned : fleet.daemon.Owned) :
    fleet.rank ≤ eventsOfRequest * fleet.daemon.boots.length := by
  have near : ∀ number ∈ fleet.daemon.boots.map Boot.rank, number ≤ 15 := by
    intro number member
    obtain ⟨boot, place, rfl⟩ := List.mem_map.mp member
    obtain ⟨serial, found⟩ := List.mem_iff_getElem?.mp place
    exact Boot.rank_le (owned.phased serial boot found)
  have bounded := total_le_of_forall near
  rw [List.length_map] at bounded
  exact Nat.le_trans bounded (Nat.mul_le_mul_right _ (by decide))

/-- What is due happens to one request alone, and the fleet is nearer to its end. -/
theorem happen_of_due? (due : fleet.due? = some (serial, boot, event)) :
    ∃ next after, fleet.daemon.step? event = some next ∧
      (fleet.happen serial boot event).daemon = next ∧
      next.boots = fleet.daemon.boots.set serial after ∧
      (fleet.happen serial boot event).rank < fleet.rank := by
  obtain ⟨found, next⟩ := next?_of_due? due
  obtain ⟨-, later, after, stepped, boots, nearer⟩ := furthers_of_next? found next
  refine ⟨later, after, stepped, by rw [daemon_happen, stepped]; rfl, boots, ?_⟩
  unfold rank
  rw [daemon_happen, stepped, Option.getD_some, boots, List.map_set]
  have place : (fleet.daemon.boots.map Boot.rank)[serial]? = some boot.rank := by
    rw [List.getElem?_map, found]
    rfl
  have changed := total_set place after.rank
  omega

theorem owned_happen (owned : fleet.daemon.Owned) (due : fleet.due? = some (serial, boot, event)) :
    (fleet.happen serial boot event).daemon.Owned := by
  obtain ⟨next, after, stepped, moved, -⟩ := happen_of_due? due
  rw [moved]
  exact owned.step stepped

theorem length_boots_happen (due : fleet.due? = some (serial, boot, event)) :
    (fleet.happen serial boot event).daemon.boots.length = fleet.daemon.boots.length := by
  obtain ⟨next, after, -, moved, boots, -⟩ := happen_of_due? due
  rw [moved, boots, List.length_set]

/-! ### One instant -/

/-- With as many events as the requests can see, everything that is due is done. -/
theorem due?_settleWithin {events : Nat} (enough : fleet.rank < events) :
    (settleWithin events fleet).due? = none := by
  induction events generalizing fleet with
  | zero => exact absurd enough (Nat.not_lt_zero _)
  | succ events inductionHypothesis =>
    unfold settleWithin
    split
    · rename_i serial boot event due
      obtain ⟨-, -, -, -, -, nearer⟩ := happen_of_due? due
      exact inductionHypothesis (by omega)
    · assumption

/-- An instant that starts with a daemon in order ends at rest. -/
theorem due?_settle (fleet : Fleet) (owned : fleet.daemon.Owned) : fleet.settle.due? = none :=
  due?_settleWithin (Nat.lt_succ_of_le (rank_le owned))

theorem now_settleWithin (events : Nat) (fleet : Fleet) :
    (settleWithin events fleet).now = fleet.now := by
  induction events generalizing fleet with
  | zero => rfl
  | succ events inductionHypothesis =>
    unfold settleWithin
    split
    · rw [inductionHypothesis, now_happen]
    · rfl

theorem rank_settleWithin_le (events : Nat) (fleet : Fleet) :
    (settleWithin events fleet).rank ≤ fleet.rank := by
  induction events generalizing fleet with
  | zero => exact Nat.le_refl _
  | succ events inductionHypothesis =>
    unfold settleWithin
    split
    · rename_i serial boot event due
      obtain ⟨-, -, -, -, -, nearer⟩ := happen_of_due? due
      exact Nat.le_trans (inductionHypothesis _) (Nat.le_of_lt nearer)
    · exact Nat.le_refl _

/-- An instant at which something is due brings the fleet nearer to its end. -/
theorem rank_settle_lt (busy : fleet.due? ≠ none) : fleet.settle.rank < fleet.rank := by
  unfold settle settleWithin
  split
  · rename_i serial boot event due
    obtain ⟨-, -, -, -, -, nearer⟩ := happen_of_due? due
    exact Nat.lt_of_le_of_lt (rank_settleWithin_le _ _) nearer
  · rename_i idle
    exact absurd idle busy

end Rehearsal.Fleet

end VmFleet
