/-
This file proves that the states of a machine only go forward. A registered machine
starts as reserved, and each step leaves it in its state, moves it by one legal move
or takes it out for good; every legal move leads higher, and a machine that runs and
one that failed are at the same height. So what a whole run shows of one machine is
a row of states that ascends, with nothing before it and nothing after it. The top
is a halt: whoever was asked to end is halting for as long as it is registered.
-/

import Mathlib.Data.List.Destutter
import VmFleet.Proofs.Supervision.Closing

namespace VmFleet

/-! ### Heights -/

namespace VmState

/-- How far a state is from the reservation. -/
def height : VmState → Nat
  | .reserved => 0
  | .spawning => 1
  | .awaitingAddress => 2
  | .running | .failed => 3
  | .halting => 4
  | .reaped => 5

/-- Every legal move leads higher. -/
theorem height_lt_of_canMove {state next : VmState} (legal : state.canMove next = true) :
    state.height < next.height := by
  cases state <;> cases next <;> first | contradiction | decide

/-- What can follow a state while the machine is registered. -/
def Onward (state next : VmState) : Prop :=
  next = state ∨ state.canMove next = true ∧ next ≠ .reaped

/-- No machine becomes reaped while it is registered. -/
theorem Onward.alive {state next : VmState} (onward : state.Onward next)
    (alive : state ≠ .reaped) : next ≠ .reaped := by
  rcases onward with rfl | ⟨-, other⟩
  · exact alive
  · exact other

/-- A halt is the last state of a registered machine. -/
theorem Onward.halting {next : VmState} (onward : Onward .halting next) : next = .halting := by
  rcases onward with same | ⟨legal, alive⟩
  · exact same
  · exact absurd (eq_reaped_of_canMove_halting legal) alive

/-- The states of a machine one after the other; a state that stays is told once. -/
def path (states : List VmState) : List VmState :=
  states.destutter (· ≠ ·)

/-- Where each state stays or moves, a path is a row of moves from the first state on. -/
theorem exists_path_eq_cons {state : VmState} {states : List VmState}
    (onward : (state :: states).IsChain Onward) :
    ∃ rest, path (state :: states) = state :: rest ∧
      (state :: rest).IsChain fun earlier later => earlier.canMove later = true := by
  unfold path
  rw [List.destutter_cons']
  induction states generalizing state with
  | nil => exact ⟨[], rfl, .singleton _⟩
  | cons next states inductionHypothesis =>
    obtain ⟨first, others⟩ := List.isChain_cons_cons.mp onward
    by_cases same : state = next
    · subst same
      rw [List.destutter'_cons_neg _ (by simp)]
      exact inductionHypothesis others
    · obtain ⟨rest, told, moves⟩ := inductionHypothesis others
      rw [List.destutter'_cons_pos _ same, told]
      exact ⟨_, rfl, List.isChain_cons_cons.mpr ⟨(first.resolve_left (Ne.symm same)).1, moves⟩⟩

theorem isChain_path {states : List VmState} (onward : states.IsChain Onward) :
    (path states).IsChain fun earlier later => earlier.canMove later = true := by
  cases states with
  | nil => exact .nil
  | cons state states =>
    obtain ⟨rest, told, moves⟩ := exists_path_eq_cons onward
    rw [told]
    exact moves

/-- A row of legal moves ascends as a whole. -/
theorem ascending_of_isChain {states : List VmState}
    (moves : states.IsChain fun earlier later => earlier.canMove later = true) :
    states.Pairwise fun earlier later => earlier.height < later.height := by
  refine List.Pairwise.of_map (S := (· < ·)) height (fun _ _ => id) ?_
  rw [← List.isChain_iff_pairwise, List.isChain_map]
  exact moves.imp fun _ _ => height_lt_of_canMove

/-- States that ascend: the first is the reservation, each later one is another one by a legal
move and leads higher, none comes again, no machine that ran has failed, and none is shown as
reaped. -/
structure Ascends (states : List VmState) : Prop where
  first : ∀ first ∈ states.head?, first = .reserved
  moves : (path states).IsChain fun earlier later => earlier.canMove later = true
  ascending : (path states).Pairwise fun earlier later => earlier.height < later.height
  once : (path states).Nodup
  settled : ¬ (.running ∈ states ∧ .failed ∈ states)
  alive : .reaped ∉ states

/-- Two states of one machine at the same height are one state. -/
theorem eq_of_height_eq {states : List VmState} (onward : states.IsChain Onward)
    {state other : VmState} (member : state ∈ states) (present : other ∈ states)
    (level : state.height = other.height) : state = other := by
  have higher : states.Pairwise fun earlier later =>
      later = earlier ∨ earlier.height < later.height := by
    have chain := onward.imp fun earlier later (next : Onward earlier later) =>
      next.imp_right fun moved => height_lt_of_canMove moved.1
    have : IsTrans VmState fun earlier later =>
        later = earlier ∨ earlier.height < later.height := by
      refine ⟨?_⟩
      rintro first second third (rfl | lower) (rfl | higher)
      · exact .inl rfl
      · exact .inr higher
      · exact .inr lower
      · exact .inr (lower.trans higher)
    exact List.isChain_iff_pairwise.mp chain
  have apart : states.Pairwise fun earlier later =>
      earlier.height = later.height → earlier = later :=
    higher.imp fun above same => above.elim Eq.symm fun lower => absurd same lower.ne
  have : Std.Symm fun earlier later : VmState =>
      earlier.height = later.height → earlier = later :=
    ⟨fun _ _ same level => (same level.symm).symm⟩
  exact apart.forall_of_forall (fun _ _ _ => rfl) member present level

/-- A row of states that stay or move on from the reservation ascends. -/
theorem ascends_of_isChain {states : List VmState}
    (first : ∀ first ∈ states.head?, first = .reserved) (onward : states.IsChain Onward) :
    Ascends states where
  first := first
  moves := isChain_path onward
  ascending := ascending_of_isChain (isChain_path onward)
  once := (ascending_of_isChain (isChain_path onward)).imp fun lower same =>
    lower.ne (congrArg height same)
  settled := fun ⟨ran, lost⟩ => nomatch eq_of_height_eq onward ran lost rfl
  alive := fun reaped => onward.induction (· ≠ .reaped) _ (fun _ _ next => next.alive)
    (fun other => by rw [first _ (List.head_mem_head? other)]; exact nofun) _ reaped rfl

end VmState

namespace Daemon

variable {daemon next : Daemon} {event : Event} {serial : Nat}

/-! ### The state of one machine -/

/-- The state in which the machine of a request is registered. -/
def stateOf? (daemon : Daemon) (serial : Nat) : Option VmState :=
  (daemon.shared.registry.active.rows.find? (·.2.halt == serial)).map (·.2.vm.state)

theorem Owned.stateOf?_eq_some_iff (owned : daemon.Owned) {state : VmState} :
    daemon.stateOf? serial = some state ↔ ∃ uuid vm,
      daemon.shared.registry.active.find? uuid = some ⟨vm, serial⟩ ∧ vm.state = state := by
  have unambiguous := (Registry.unambiguous_deeds_iff _).mp owned.unambiguous
  constructor
  · intro shown
    obtain ⟨⟨uuid, ⟨vm, token⟩⟩, row, same⟩ := Option.map_eq_some_iff.mp shown
    obtain rfl : token = serial := by simpa using List.find?_some row
    exact ⟨uuid, vm, unambiguous.find?_of_mem (List.mem_of_find?_eq_some row), same⟩
  · rintro ⟨uuid, vm, present, rfl⟩
    have member := Keyed.mem_rows_of_find? present
    have shown : (daemon.shared.registry.active.rows.find? (·.2.halt == serial)).isSome := by
      rw [List.find?_isSome]
      exact ⟨_, member, beq_self_eq_true serial⟩
    obtain ⟨⟨other, ⟨record, token⟩⟩, row⟩ := Option.isSome_iff_exists.mp shown
    obtain rfl : token = serial := by simpa using List.find?_some row
    -- both rows are the one under the identity of the request
    obtain ⟨boot, found, -, rfl⟩ := owned.answerable member
    obtain ⟨answering, place, -, rfl⟩ := owned.answerable (List.mem_of_find?_eq_some row)
    obtain rfl := Option.some.inj (found.symm.trans place)
    have same := unambiguous.find?_of_mem (List.mem_of_find?_eq_some row)
    obtain rfl : record = vm := by
      rw [present] at same
      exact congrArg RegistryEntry.vm (Option.some.inj same).symm
    unfold stateOf?
    rw [row]
    rfl

theorem Owned.stateOf?_eq_none_iff (owned : daemon.Owned) :
    daemon.stateOf? serial = none ↔ ¬ daemon.Registers serial := by
  rw [Option.eq_none_iff_forall_ne_some]
  constructor
  · rintro hidden ⟨uuid, vm, member⟩
    have unambiguous := (Registry.unambiguous_deeds_iff _).mp owned.unambiguous
    exact hidden _ (owned.stateOf?_eq_some_iff.mpr ⟨uuid, vm, unambiguous.find?_of_mem member, rfl⟩)
  · intro absent state shown
    obtain ⟨uuid, vm, present, -⟩ := owned.stateOf?_eq_some_iff.mp shown
    exact absent ⟨uuid, vm, Keyed.mem_rows_of_find? present⟩

theorem Owned.not_registers_of_arrived (owned : daemon.Owned) {boot : Boot}
    (found : daemon.boots[serial]? = some boot) (phase : boot.request = .arrived) :
    ¬ daemon.Registers serial := by
  rw [owned.registers_iff]
  rintro ⟨holding, present, holds⟩
  obtain rfl := Option.some.inj (found.symm.trans present)
  have absent := (owned.phased serial boot found (by rw [phase]; rfl)).2
  simp [Boot.holds, phase, absent, RequestPhase.holds, ReaperPhase.holds] at holds

/-- A machine that is registered in a step is reserved. -/
theorem Owned.stateOf?_new (owned : daemon.Owned) (rule : Rule daemon event next)
    (before : daemon.stateOf? serial = none) {state : VmState}
    (after : next.stateOf? serial = some state) : state = .reserved := by
  have later := owned.turn (turn_of_rule rule)
  obtain ⟨uuid, vm, present, rfl⟩ := later.stateOf?_eq_some_iff.mp after
  have absent := owned.stateOf?_eq_none_iff.mp before
  cases motion_of_rule rule with
  | admission other draws time admitted asked opened state shared =>
    rw [shared, Keyed.find?_insert] at present
    split at present
    · obtain rfl := congrArg RegistryEntry.vm (Option.some.inj present)
      exact state
    · exact absurd ⟨uuid, vm, Keyed.mem_rows_of_find? present⟩ absent
  | course registry closing =>
    obtain ⟨⟨earlier, token⟩, stood, rfl, -⟩ := registry.entries uuid _ present
    exact absurd ⟨uuid, earlier, Keyed.mem_rows_of_find? stood⟩ absent

/-- A registered machine stays, moves by one legal move, or is gone for good. -/
theorem Owned.stateOf?_step (owned : daemon.Owned) (rule : Rule daemon event next)
    {state : VmState} (before : daemon.stateOf? serial = some state) :
    (∃ later, next.stateOf? serial = some later ∧ state.Onward later) ∨ next.Past serial := by
  have unambiguous := (Registry.unambiguous_deeds_iff _).mp owned.unambiguous
  obtain ⟨uuid, vm, present, rfl⟩ := owned.stateOf?_eq_some_iff.mp before
  have registers : daemon.Registers serial := ⟨uuid, vm, Keyed.mem_rows_of_find? present⟩
  have later := owned.turn (turn_of_rule rule)
  rcases owned.registers_turn registers (turn_of_rule rule) with ⟨-, kept⟩ | ⟨-, past⟩
  · refine .inl ?_
    cases shown : next.stateOf? serial with
    | none => exact absurd kept (later.stateOf?_eq_none_iff.mp shown)
    | some other =>
      refine ⟨other, rfl, ?_⟩
      obtain ⟨place, record, stands, rfl⟩ := later.stateOf?_eq_some_iff.mp shown
      have unmoved : ∀ earlier, daemon.shared.registry.active.find? place = some ⟨earlier, serial⟩ →
          vm.state = earlier.state := fun earlier stood =>
        Option.some.inj (before.symm.trans (owned.stateOf?_eq_some_iff.mpr ⟨place, earlier, stood, rfl⟩))
      cases motion_of_rule rule with
      | admission admitted draws time fresh asked opened state shared =>
        rw [shared, Keyed.find?_insert] at stands
        split at stands
        · -- whoever is admitted now was not registered before
          obtain rfl := congrArg RegistryEntry.halt (Option.some.inj stands)
          subst asked
          cases rule with
          | reserve _ _ found phase => exact absurd registers (owned.not_registers_of_arrived found phase)
        · exact .inl (unmoved record stands).symm
      | course registry closing =>
        obtain ⟨⟨earlier, token⟩, stood, rfl, moves⟩ := registry.entries place _ stands
        rw [unmoved earlier stood]
        exact moves.state
  · exact .inr past

/-! ### Whole runs -/

/-- The state of the machine of a request at every moment of a run, as far as the run goes. -/
def sightings (serial : Nat) : Daemon → List Event → List (Option VmState)
  | daemon, [] => [daemon.stateOf? serial]
  | daemon, event :: events =>
    daemon.stateOf? serial :: (daemon.step? event).elim [] fun next => sightings serial next events

theorem sightings_cons {events : List Event} (stepped : daemon.step? event = some next) :
    sightings serial daemon (event :: events) =
      daemon.stateOf? serial :: sightings serial next events := by
  rw [sightings, stepped, Option.elim_some]

/-- A machine that is gone is never seen again. -/
theorem Past.sightings {later : Daemon} {events : List Event} (past : daemon.Past serial)
    (owned : daemon.Owned) (ran : daemon.run? events = some later) :
    sightings serial daemon events = List.replicate (events.length + 1) none := by
  have hidden : daemon.stateOf? serial = none :=
    owned.stateOf?_eq_none_iff.mpr (owned.not_registers past)
  induction events generalizing daemon with
  | nil => exact congrArg (fun shown => [shown]) hidden
  | cons event events inductionHypothesis =>
    obtain ⟨next, stepped, rest⟩ := run?_cons_eq_some.mp ran
    have gone := (past.turn (turn_of_rule (rule_of_step? stepped))).2
    have orderly := owned.step stepped
    rw [sightings_cons stepped, hidden, List.length_cons, List.replicate_succ,
      inductionHypothesis gone orderly rest
        (orderly.stateOf?_eq_none_iff.mpr (orderly.not_registers gone))]

/-- From a moment at which a machine is registered it is seen in a row of states that stay or
move on, and then never again. -/
theorem Owned.sightings_of_registered {later : Daemon} {events : List Event} {state : VmState}
    (owned : daemon.Owned) (ran : daemon.run? events = some later)
    (shown : daemon.stateOf? serial = some state) :
    ∃ rest after, sightings serial daemon events =
        (state :: rest).map some ++ List.replicate after none ∧
      (state :: rest).IsChain VmState.Onward := by
  induction events generalizing daemon state with
  | nil => exact ⟨[], 0, congrArg (fun shown => [shown]) shown, .singleton _⟩
  | cons event events inductionHypothesis =>
    obtain ⟨next, stepped, rest⟩ := run?_cons_eq_some.mp ran
    rw [sightings_cons stepped, shown]
    rcases owned.stateOf?_step (rule_of_step? stepped) shown with ⟨other, seen, onward⟩ | past
    · obtain ⟨states, after, same, chain⟩ := inductionHypothesis (owned.step stepped) rest seen
      exact ⟨other :: states, after, congrArg (some state :: ·) same,
        List.isChain_cons_cons.mpr ⟨onward, chain⟩⟩
    · refine ⟨[], events.length + 1, ?_, .singleton _⟩
      rw [past.sightings (owned.step stepped) rest]
      rfl

/-- Where a machine is not registered yet, it is first seen as reserved. -/
theorem Owned.sightings_of_hidden {later : Daemon} {events : List Event} (owned : daemon.Owned)
    (ran : daemon.run? events = some later) (hidden : daemon.stateOf? serial = none) :
    ∃ before, ∃ states : List VmState, ∃ after, sightings serial daemon events =
        List.replicate before none ++ states.map some ++ List.replicate after none ∧
      (∀ first ∈ states.head?, first = .reserved) ∧ states.IsChain VmState.Onward := by
  induction events generalizing daemon with
  | nil => exact ⟨1, [], 0, congrArg (fun shown => [shown]) hidden, nofun, .nil⟩
  | cons event events inductionHypothesis =>
    obtain ⟨next, stepped, rest⟩ := run?_cons_eq_some.mp ran
    rw [sightings_cons stepped, hidden]
    cases shown : next.stateOf? serial with
    | none =>
      obtain ⟨before, states, after, same, first, chain⟩ :=
        inductionHypothesis (owned.step stepped) rest shown
      exact ⟨before + 1, states, after, congrArg (none :: ·) same, first, chain⟩
    | some state =>
      obtain rfl := owned.stateOf?_new (rule_of_step? stepped) hidden shown
      obtain ⟨states, after, same, chain⟩ :=
        (owned.step stepped).sightings_of_registered rest shown
      refine ⟨1, .reserved :: states, after, congrArg (none :: ·) same, ?_, chain⟩
      rintro first ⟨⟩
      rfl

/-! ### Machines that were asked to end -/

/-- Whoever is told to have been asked to end is halting, registered as before. -/
theorem Owned.stateOf?_halt (later : next.Owned)
    (alive : ∀ (uuid : String) (entry : RegistryEntry),
      daemon.shared.registry.active.find? uuid = some entry → entry.vm.state ≠ .reaped)
    {identities : List String}
    (halted : next.shared.registry = (daemon.shared.registry.halt identities).1) {uuid : String}
    (asked : uuid ∈ (daemon.shared.registry.halt identities).2) :
    ∃ entry, (uuid, entry) ∈ daemon.shared.registry.active.rows ∧
      next.stateOf? entry.halt = some .halting := by
  obtain ⟨named, taken⟩ := List.mem_filter.mp asked
  rw [Registry.contains, Keyed.contains_eq] at taken
  obtain ⟨entry, present⟩ := Option.isSome_iff_exists.mp taken
  refine ⟨entry, Keyed.mem_rows_of_find? present, later.stateOf?_eq_some_iff.mpr
    ⟨uuid, entry.vm.moveTo .halting, ?_, Vm.state_moveTo_halting (alive uuid entry present)⟩⟩
  rw [halted, Registry.find?_halt, if_pos named, present]
  rfl

/-- From a moment at which a machine is halting it is only ever seen halting, and then never
again. -/
theorem Owned.sightings_of_halting {later : Daemon} {events : List Event} (owned : daemon.Owned)
    (ran : daemon.run? events = some later) (shown : daemon.stateOf? serial = some .halting) :
    ∃ seen after, sightings serial daemon events =
      List.replicate (seen + 1) (some .halting) ++ List.replicate after none := by
  obtain ⟨rest, after, same, chain⟩ := owned.sightings_of_registered ran shown
  have halting : rest = List.replicate rest.length .halting :=
    List.eq_replicate_iff.mpr ⟨rfl, chain.cons_induction (· = .halting) _
      (fun _ _ onward stood => (stood ▸ onward).halting) rfl⟩
  refine ⟨rest.length, after, ?_⟩
  rw [same, halting, List.length_replicate, ← List.replicate_succ, List.map_replicate]

/-! ### The result -/

/-- The states of a machine only go forward. Whatever the order of all steps, what a run shows
of the machine of a request is one row of states, with nothing before it and nothing after it,
and that row ascends. And each machine that a stop or a shutdown tells of is halting from then
on, for as long as it is registered. -/
theorem states_ascend {setup : Setup} {tree : Tree} {events : List Event}
    (ran : (initial setup tree).run? events = some daemon) :
    (∀ serial, ∃ before, ∃ states : List VmState, ∃ after,
      sightings serial (initial setup tree) events =
        List.replicate before none ++ states.map some ++ List.replicate after none ∧
      VmState.Ascends states) ∧
    (∀ next asked, (∃ targets, daemon.stop targets = (next, asked)) ∨
        daemon.shutDown = (next, asked) →
      ∀ uuid ∈ asked, ∃ entry, (uuid, entry) ∈ daemon.shared.registry.active.rows ∧
        ∀ others later, next.run? others = some later →
          ∃ seen after, sightings entry.halt next others =
            List.replicate (seen + 1) (some .halting) ++ List.replicate after none) := by
  have start := owned_initial setup tree
  have owned := start.run ran
  have reached : Reachable (initial setup tree) daemon := reachable_iff.mpr ⟨events, ran⟩
  refine ⟨fun serial => ?_, fun next asked halted uuid member => ?_⟩
  · have hidden : (initial setup tree).stateOf? serial = none := rfl
    obtain ⟨before, states, after, same, first, onward⟩ := start.sightings_of_hidden ran hidden
    exact ⟨before, states, after, same, VmState.ascends_of_isChain first onward⟩
  · obtain ⟨event, identities, stepped, registry, told⟩ :
        ∃ event identities, daemon.step? event = some next ∧
          next.shared.registry = (daemon.shared.registry.halt identities).1 ∧
          asked = (daemon.shared.registry.halt identities).2 := by
      rcases halted with ⟨targets, same⟩ | same
      · obtain ⟨rfl, rfl⟩ := Prod.mk.inj same
        exact ⟨.stop targets, _, rfl, rfl, rfl⟩
      · obtain ⟨rfl, rfl⟩ := Prod.mk.inj same
        exact ⟨.shutDown, _, rfl, rfl, rfl⟩
    have later := owned.step stepped
    obtain ⟨entry, row, halting⟩ :=
      later.stateOf?_halt (alive_of_reachable reached) registry (told ▸ member)
    exact ⟨entry, row, fun others _ onward => later.sightings_of_halting onward halting⟩

/-- A machine is started and reports its address. -/
def goneUp : List Event :=
  [.submit (Vm.draft "alpha" "1.2.3"), .reserve 0 (drawing 1) 7, .prepare 0, .announce 0,
    .launch 0 (.ok ⟨100, true⟩), .handOver 0 0, .hear 0 "10.0.0.1", .recordAddress 0]

theorem sightings_goneUp :
    (stocked.run? goneUp).any (fun daemon =>
      (daemon.shutDown.1.run? [.settleAddress 0, .exit 0, .deregister 0]).any fun later =>
        (sightings 0 stocked goneUp).filterMap id ==
          [.reserved, .reserved, .spawning, .spawning, .awaitingAddress, .awaitingAddress, .running] &&
        daemon.shutDown.2.length == 1 &&
        daemon.shared.registry.active.rows.all (·.2.halt == 0) && later.stateOf? 0 == none) = true := by
  decide +kernel

theorem states_ascend_of_stocked :
    ∃ (daemon later : Daemon) (states : List VmState), stocked.run? goneUp = some daemon ∧
      daemon.shutDown.1.run? [.settleAddress 0, .exit 0, .deregister 0] = some later ∧
      VmState.Ascends states ∧ states.getLast? = some .running ∧ later.stateOf? 0 = none ∧
      ∃ seen after, sightings 0 daemon.shutDown.1 [.settleAddress 0, .exit 0, .deregister 0] =
        List.replicate (seen + 1) (some .halting) ++ List.replicate after none := by
  obtain ⟨daemon, ran, goes⟩ := (Option.any_eq_true _ _).mp sightings_goneUp
  obtain ⟨later, onward, shown⟩ := (Option.any_eq_true _ _).mp goes
  simp only [Bool.and_eq_true, beq_iff_eq] at shown
  obtain ⟨⟨⟨seen, one⟩, rows⟩, gone⟩ := shown
  obtain ⟨histories, halts⟩ := states_ascend ran
  obtain ⟨before, states, after, same, ascends⟩ := histories 0
  have row : states = [.reserved, .reserved, .spawning, .spawning, .awaitingAddress,
      .awaitingAddress, .running] := by
    rw [← seen, show sightings 0 stocked goneUp = _ from same]
    simp
  obtain ⟨uuid, asked⟩ := List.exists_mem_of_length_pos (by omega : 0 < daemon.shutDown.2.length)
  obtain ⟨entry, present, halting⟩ := halts _ _ (.inr rfl) uuid asked
  have token : entry.halt = 0 := eq_of_beq (List.all_eq_true.mp rows _ present)
  rw [token] at halting
  exact ⟨daemon, later, states, ran, onward, ascends, row ▸ rfl, gone, halting _ _ onward⟩

end Daemon

end VmFleet
