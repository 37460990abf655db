/-
This file proves that a shutdown is final. Its one section under the lock closes
the daemon and asks every machine to end, also one whose runner is not yet started
and one that already failed. After it nothing enters the registry any more, and a
request that was on its way when the daemon closed cannot move its machine: from
the state of a machine that is asked to end no legal move leads on but the last, and
no step makes that one. So each entry stays as it is until it is taken out.
-/

import VmFleet.Proofs.Supervision.Admission
import VmFleet.Proofs.Supervision.Identity
import VmFleet.Proofs.Supervision.Motion

namespace VmFleet

/-- What has a row is one of the keys. -/
theorem Keyed.mem_keys_of_find? {α : Type} {table : Keyed α} {key : String} {value : α}
    (found : table.find? key = some value) : key ∈ table.keys :=
  List.mem_map.mpr ⟨_, mem_rows_of_find? found, rfl⟩

namespace Registry

/-- Asking every machine to end moves each of them there, or leaves it at its end. -/
theorem find?_halt_keys {registry : Registry} {uuid : String} {entry : RegistryEntry}
    (found : (registry.halt registry.active.keys).1.active.find? uuid = some entry) :
    ∃ earlier, registry.active.find? uuid = some earlier ∧
      entry = { earlier with vm := earlier.vm.moveTo .halting } := by
  rw [find?_halt] at found
  split at found
  · obtain ⟨earlier, present, rfl⟩ := Option.map_eq_some_iff.mp found
    exact ⟨earlier, present, rfl⟩
  · rename_i absent
    exact absurd (Keyed.mem_keys_of_find? found) absent

/-- Asking every machine to end cancels the token of each. -/
theorem isCancelled_halt_keys {registry : Registry} {uuid : String} {entry : RegistryEntry}
    (found : registry.active.find? uuid = some entry) :
    (registry.halt registry.active.keys).1.isCancelled entry.halt = true := by
  rw [isCancelled_halt, Bool.or_eq_true, List.any_eq_true]
  refine .inr ⟨uuid, Keyed.mem_keys_of_find? found, ?_⟩
  rw [found]
  exact beq_self_eq_true entry.halt

end Registry

/-- A machine that is not reaped can always be asked to end. -/
theorem Vm.state_moveTo_halting {vm : Vm} (alive : vm.state ≠ .reaped) :
    (vm.moveTo .halting).state = .halting := by
  rw [state_moveTo]
  cases here : vm.state <;> first | rfl | exact absurd here alive

namespace Daemon

variable {start daemon next : Daemon} {event : Event}

/-! ### The invariant -/

/-- The daemon is closing and has no machine that it did not have at the start; each one that
is left is asked to end. -/
structure ClosedSince (start daemon : Daemon) : Prop where
  closing : daemon.shared.closing = true
  entries : ∀ (uuid : String) (entry : RegistryEntry),
    daemon.shared.registry.active.find? uuid = some entry →
    ∃ earlier, start.shared.registry.active.find? uuid = some earlier ∧
      entry.halt = earlier.halt ∧ entry.vm.lasting = earlier.vm.lasting ∧
      entry.vm.state = .halting ∧ daemon.shared.registry.isCancelled entry.halt = true

/-- The section of a shutdown closes the daemon. -/
theorem closedSince_shutDown
    (alive : ∀ (uuid : String) (entry : RegistryEntry),
      start.shared.registry.active.find? uuid = some entry → entry.vm.state ≠ .reaped) :
    ClosedSince start start.shutDown.1 := by
  refine ⟨rfl, fun uuid entry found => ?_⟩
  obtain ⟨earlier, present, rfl⟩ := Registry.find?_halt_keys found
  have cancelled := Registry.isCancelled_halt_keys present
  exact ⟨earlier, present, rfl, Vm.lasting_moveTo _ _,
    Vm.state_moveTo_halting (alive uuid earlier present), cancelled⟩

/-- No step opens the daemon again or lets a machine go on. -/
theorem ClosedSince.step (closed : ClosedSince start daemon) (rule : Rule daemon event next) :
    ClosedSince start next := by
  cases motion_of_rule rule with
  | admission serial draws time vm asked opened state shared =>
    rw [closed.closing] at opened
    cases opened
  | course registry closing =>
    refine ⟨closing closed.closing, fun uuid entry found => ?_⟩
    obtain ⟨before, present, token, moves⟩ := registry.entries uuid entry found
    obtain ⟨earlier, first, same, lasting, halting, cancelled⟩ := closed.entries uuid before present
    refine ⟨earlier, first, token.trans same, moves.lasting.trans lasting, moves.halting halting, ?_⟩
    rw [token]
    exact registry.tokens _ cancelled

theorem ClosedSince.reachable (closed : ClosedSince start daemon) {later : Daemon}
    (onward : Reachable daemon later) : ClosedSince start later := by
  induction onward with
  | start => exact closed
  | step event _ stepped inductionHypothesis => exact inductionHypothesis.step (rule_of_step? stepped)

theorem Reachable.trans {later : Daemon} (reached : Reachable start daemon)
    (onward : Reachable daemon later) : Reachable start later := by
  induction onward with
  | start => exact reached
  | step event _ stepped inductionHypothesis => exact .step event inductionHypothesis stepped

/-! ### The result -/

/-- A daemon that was shut down stays closed, whatever follows. It has no machine that it did
not have when it was shut down; every machine that is still there is asked to end, in its state
and by its token; and whoever asks for a machine from then on is refused, and nothing else
changes. -/
theorem closed_after_shutDown {setup : Setup} {tree : Tree} {daemon later : Daemon}
    (reached : Reachable (initial setup tree) daemon)
    (onward : Reachable daemon.shutDown.1 later) :
    (∀ uuid entry, (uuid, entry) ∈ later.shared.registry.active.rows →
      ∃ earlier, (uuid, earlier) ∈ daemon.shared.registry.active.rows ∧
        entry.halt = earlier.halt ∧ entry.vm.lasting = earlier.vm.lasting ∧
        entry.vm.state = .halting ∧ later.shared.registry.isCancelled entry.halt = true) ∧
    (∀ serial boot draws time, later.boots[serial]? = some boot → boot.request = .arrived →
      later.step? (.reserve serial draws time) =
        some (later.put serial
          { boot with
            request := .answered (.error (.validation "daemon is shutting down")) })) := by
  have closed := (closedSince_shutDown (alive_of_reachable reached)).reachable onward
  have through := (Reachable.step .shutDown reached rfl).trans onward
  have unambiguous := (Registry.unambiguous_deeds_iff _).mp (owned_of_reachable through).unambiguous
  refine ⟨fun uuid entry member => ?_, fun serial boot draws time found phase => ?_⟩
  · obtain ⟨earlier, present, same⟩ := closed.entries uuid entry (unambiguous.find?_of_mem member)
    exact ⟨earlier, Keyed.mem_rows_of_find? present, same⟩
  · rw [step?_of_rule (.reserve draws time found phase), reserve_of_closing draws time closed.closing]

/-- One machine is about to be started and another one is only reserved. -/
def beforeClosing : List Event :=
  [.submit (Vm.draft "alpha" "1.2.3"), .submit (Vm.draft "alpha" "1.2.3"),
    .reserve 0 (drawing 1) 7, .prepare 0, .announce 0, .reserve 1 (drawing 2) 8]

/-- The machine is started all the same and reports an address, and a third one is asked for. -/
def afterClosing : List Event :=
  [.launch 0 (.ok ⟨100, true⟩), .handOver 0 0, .hear 0 "10.0.0.1", .recordAddress 0,
    .submit (Vm.draft "alpha" "1.2.3")]

theorem rows_afterClosing :
    (stocked.run? beforeClosing).any (fun daemon =>
      (daemon.shutDown.1.run? afterClosing).any fun later =>
        later.shared.registry.active.rows.map
            (fun (_, entry) => (entry.halt, entry.vm.state, entry.vm.publicIp)) ==
          [(0, .halting, "10.0.0.1"), (1, .halting, "")] &&
        later.boots[2]?.any (·.request matches .arrived)) = true := by
  decide +kernel

theorem closed_after_shutDown_of_stocked :
    ∃ (daemon later : Daemon) (boot : Boot), Reachable stocked daemon ∧ Reachable daemon.shutDown.1 later ∧
      later.shared.registry.active.rows.map
        (fun (_, entry) => (entry.halt, entry.vm.state, entry.vm.publicIp)) =
          [(0, .halting, "10.0.0.1"), (1, .halting, "")] ∧
      later.shared.registry.isCancelled 1 = true ∧
      later.step? (.reserve 2 (drawing 3) 9) =
        some (later.put 2
          { boot with
            request := .answered (.error (.validation "daemon is shutting down")) }) := by
  obtain ⟨daemon, ran, closed⟩ := (Option.any_eq_true _ _).mp rows_afterClosing
  obtain ⟨later, onward, left⟩ := (Option.any_eq_true _ _).mp closed
  rw [Bool.and_eq_true, beq_iff_eq] at left
  obtain ⟨rows, waiting⟩ := left
  obtain ⟨boot, found, phase⟩ := (Option.any_eq_true _ _).mp waiting
  have arrived : boot.request = .arrived := by
    split at phase
    · assumption
    · cases phase
  have reached : Reachable stocked daemon := reachable_iff.mpr ⟨_, ran⟩
  have followed : Reachable daemon.shutDown.1 later := reachable_iff.mpr ⟨_, onward⟩
  obtain ⟨entries, refused⟩ := closed_after_shutDown reached followed
  have member : (1, VmState.halting, "") ∈ later.shared.registry.active.rows.map
      fun (_, entry) => (entry.halt, entry.vm.state, entry.vm.publicIp) := by
    rw [rows]
    exact .tail _ (.head _)
  obtain ⟨⟨uuid, entry⟩, row, same⟩ := List.mem_map.mp member
  obtain ⟨token, -⟩ := Prod.mk.inj same
  obtain ⟨-, -, -, -, -, cancelled⟩ := entries uuid entry row
  rw [show entry.halt = 1 from token] at cancelled
  exact ⟨daemon, later, boot, reached, followed, rows, cancelled, refused 2 boot _ 9 found arrived⟩

end Daemon

end VmFleet
