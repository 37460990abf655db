/-
This file says once what a step of the daemon does to the moving part of the
entries: the state, the process and the address of a machine, and the tokens that
ask runners to end. A machine that is registered after a step was registered before
it, under the same identity and for the same request, and its state stayed or moved
by one legal move; or it was admitted in this step. No step shows a registered
machine as reaped, no token is taken back, and a daemon that is closing stays so.
-/

import VmFleet.Proofs.Supervision.Turn

namespace VmFleet

/-! ### One record -/

/-- Only being reaped follows a halt. -/
theorem VmState.eq_reaped_of_canMove_halting {next : VmState}
    (legal : VmState.halting.canMove next = true) : next = .reaped := by
  cases next <;> first | rfl | cases legal

/-- What can become of a record in one step while its machine is registered. -/
structure Vm.MovesTo (vm after : Vm) : Prop where
  lasting : after.lasting = vm.lasting
  state : after.state = vm.state ∨ vm.state.canMove after.state = true ∧ after.state ≠ .reaped

namespace Vm

theorem movesTo_self (vm : Vm) : vm.MovesTo vm := ⟨rfl, .inl rfl⟩

/-- A record moved to a state, with another process and another address. -/
theorem movesTo_moveTo {vm other : Vm} {next : VmState} (lasting : other.lasting = vm.lasting)
    (state : other.state = vm.state) (alive : next ≠ .reaped) : vm.MovesTo (other.moveTo next) where
  lasting := (lasting_moveTo other next).trans lasting
  state := by
    rw [state_moveTo, state]
    split
    · rename_i legal
      exact .inr ⟨legal, alive⟩
    · exact .inl rfl

/-- A machine that is asked to end only leaves that state by being reaped. -/
theorem MovesTo.halting {vm after : Vm} (moves : vm.MovesTo after)
    (halting : vm.state = .halting) : after.state = .halting := by
  rcases moves.state with same | ⟨legal, alive⟩
  · exact same.trans halting
  · rw [halting] at legal
    exact absurd (VmState.eq_reaped_of_canMove_halting legal) alive

/-- No machine becomes reaped while it is registered. -/
theorem MovesTo.alive {vm after : Vm} (moves : vm.MovesTo after) (alive : vm.state ≠ .reaped) :
    after.state ≠ .reaped := by
  rcases moves.state with same | ⟨-, other⟩
  · rw [same]
    exact alive
  · exact other

end Vm

/-! ### The registry -/

namespace Registry

/-- Every entry was there before and only moved, and no token was taken back. -/
structure Follows (before after : Registry) : Prop where
  entries : ∀ (uuid : String) (entry : RegistryEntry), after.active.find? uuid = some entry →
    ∃ earlier, before.active.find? uuid = some earlier ∧ entry.halt = earlier.halt ∧
      earlier.vm.MovesTo entry.vm
  tokens : ∀ token, before.isCancelled token = true → after.isCancelled token = true

theorem follows_self (registry : Registry) : registry.Follows registry :=
  ⟨fun _ entry found => ⟨entry, found, rfl, entry.vm.movesTo_self⟩, fun _ => id⟩

/-- Each entry stays or is changed in one way. -/
theorem follows_of_change {before after : Registry} (change : Vm → Vm)
    (moves : ∀ vm : Vm, vm.MovesTo (change vm))
    (entries : ∀ uuid, after.active.find? uuid = before.active.find? uuid ∨
      after.active.find? uuid =
        (before.active.find? uuid).map fun entry => { entry with vm := change entry.vm })
    (tokens : ∀ token, before.isCancelled token = true → after.isCancelled token = true) :
    before.Follows after := by
  refine ⟨fun uuid entry found => ?_, tokens⟩
  rcases entries uuid with same | changed
  · exact ⟨entry, same.symm.trans found, rfl, entry.vm.movesTo_self⟩
  · rw [changed] at found
    obtain ⟨earlier, present, rfl⟩ := Option.map_eq_some_iff.mp found
    exact ⟨earlier, present, rfl, moves earlier.vm⟩

theorem follows_setState (registry : Registry) (uuid : String) {next : VmState}
    (alive : next ≠ .reaped) : registry.Follows (registry.setState uuid next) := by
  refine follows_of_change (·.moveTo next) (fun vm => Vm.movesTo_moveTo rfl rfl alive)
    (fun other => ?_) fun token cancelled => ?_
  · rw [find?_setState]
    split
    · exact .inr rfl
    · exact .inl rfl
  · unfold isCancelled at cancelled ⊢
    rw [cancelled_setState]
    exact cancelled

/-- Process and address are written before the move. -/
theorem follows_amend (registry : Registry) (uuid : String) {next : VmState} {change : Vm → Vm}
    (lasting : ∀ vm, (change vm).lasting = vm.lasting) (state : ∀ vm, (change vm).state = vm.state)
    (alive : next ≠ .reaped) :
    registry.Follows ((registry.update uuid change).setState uuid next) := by
  refine follows_of_change (fun vm => (change vm).moveTo next)
    (fun vm => Vm.movesTo_moveTo (lasting vm) (state vm) alive) (fun other => ?_)
    fun token cancelled => ?_
  · rw [find?_setState, find?_update]
    split
    · rw [Option.map_map]
      exact .inr rfl
    · exact .inl rfl
  · unfold isCancelled at cancelled ⊢
    rw [cancelled_setState]
    exact cancelled

theorem follows_remove (registry : Registry) (uuid : String) :
    registry.Follows (registry.remove uuid) := by
  refine ⟨fun other entry found => ?_, fun _ => id⟩
  rw [find?_remove] at found
  split at found
  · cases found
  · exact ⟨entry, found, rfl, entry.vm.movesTo_self⟩

theorem Follows.cancel {before after : Registry} (follows : before.Follows after)
    (token : HaltToken) : before.Follows (after.cancel token) := by
  refine ⟨fun uuid entry found => follows.entries uuid entry (by simpa using found),
    fun other cancelled => ?_⟩
  rw [isCancelled_cancel, follows.tokens other cancelled]
  rfl

theorem follows_halt (registry : Registry) (identities : List String) :
    registry.Follows (registry.halt identities).1 := by
  refine follows_of_change (·.moveTo .halting)
    (fun vm => Vm.movesTo_moveTo rfl rfl nofun) (fun other => ?_) fun token cancelled => ?_
  · rw [find?_halt]
    split
    · exact .inr rfl
    · exact .inl rfl
  · rw [isCancelled_halt, cancelled]
    rfl

end Registry

namespace Daemon

/-! ### One step -/

/-- What a step does to what the lock guards: it admits a machine, or it moves entries and
takes some away. -/
inductive Motion (daemon : Daemon) (event : Event) (next : Daemon) : Prop
  /-- A machine is admitted under an identity that was free. -/
  | admission (serial : Nat) (draws : Nat → Uuid) (time : UInt64) (vm : Vm)
    (asked : event = .reserve serial draws time)
    (opened : daemon.shared.closing = false)
    (state : vm.state = .reserved)
    (shared : next.shared =
      { daemon.shared with
        registry := { daemon.shared.registry with
          active := daemon.shared.registry.active.insert vm.uuid ⟨vm, serial⟩ } })
  /-- No machine is admitted. -/
  | course
    (registry : daemon.shared.registry.Follows next.shared.registry)
    (closing : daemon.shared.closing = true → next.shared.closing = true)

variable {daemon next : Daemon} {event : Event}

/-- A step that leaves the registry as it was. -/
theorem motion_of_eq (registry : next.shared.registry = daemon.shared.registry)
    (closing : next.shared.closing = daemon.shared.closing) : Motion daemon event next := by
  refine .course ?_ fun closed => closing.trans closed
  rw [registry]
  exact Registry.follows_self _

theorem motion_reserve {serial : Nat} {boot : Boot} (draws : Nat → Uuid) (time : UInt64) :
    Motion daemon (.reserve serial draws time) (daemon.reserve serial boot draws time) := by
  cases judged : (daemon.admission serial boot draws time).outcome with
  | admitted vm =>
    obtain ⟨opened, -, ⟨identity, -, rfl⟩, -, entered⟩ := Shared.accept_eq_admitted judged
    exact .admission serial draws time _ rfl opened rfl entered
  | refused | broken =>
    have same := shared_reserve draws time (by rw [judged]; exact nofun)
    exact motion_of_eq (congrArg Shared.registry same) (congrArg Shared.closing same)

/-- Every step is a motion. -/
theorem motion_of_rule (rule : Rule daemon event next) : Motion daemon event next := by
  cases rule with
  | reserve draws time found phase => exact motion_reserve draws time
  | @launch serial boot plan outcome found phase =>
    obtain ⟨tree, same⟩ := launch_eq daemon serial boot outcome
    rw [same]
    exact motion_of_eq rfl rfl
  | announce found phase => exact .course (Registry.follows_setState _ _ nofun) id
  | @handOver serial boot now found phase =>
    obtain ⟨after, same⟩ := handOver_eq daemon serial boot now
    rw [same]
    exact .course (Registry.follows_amend _ _ (fun _ => rfl) (fun _ => rfl) nofun) id
  | recordAddress found phase =>
    exact .course (Registry.follows_amend _ _ (fun _ => rfl) (fun _ => rfl) nofun) id
  | @markFailed _ boot found phase =>
    have failed : daemon.shared.registry.Follows
        (daemon.shared.registry.setState boot.vm.uuid .failed) :=
      Registry.follows_setState _ _ nofun
    exact .course (failed.cancel _) id
  | rollBack found phase => exact .course (Registry.follows_remove _ _) id
  | deregister found phase => exact .course (Registry.follows_remove _ _) id
  | stop targets => exact .course (Registry.follows_halt _ _) id
  | shutDown => exact .course (Registry.follows_halt _ _) fun _ => rfl
  | listImages =>
    obtain ⟨tree, media, same⟩ := listImages_eq daemon
    rw [same]
    exact motion_of_eq rfl rfl
  | takeImage channel version =>
    obtain ⟨media, same⟩ := takeImage_eq daemon channel version
    rw [same]
    exact motion_of_eq rfl rfl
  | _ => exact motion_of_eq rfl rfl

/-! ### Every run -/

/-- No registered machine is ever shown as reaped. -/
theorem alive_of_reachable {setup : Setup} {tree : Tree}
    (reached : Reachable (initial setup tree) daemon) :
    ∀ (uuid : String) (entry : RegistryEntry),
      daemon.shared.registry.active.find? uuid = some entry → entry.vm.state ≠ .reaped := by
  induction reached with
  | start => exact fun _ _ found => nomatch found
  | step event _ stepped inductionHypothesis =>
    intro uuid entry found
    cases motion_of_rule (rule_of_step? stepped) with
    | admission serial draws time vm asked opened state shared =>
      rw [shared] at found
      simp only [Keyed.find?_insert] at found
      split at found
      · obtain rfl := Option.some.inj found
        rw [state]
        exact nofun
      · exact inductionHypothesis uuid entry found
    | course registry closing =>
      obtain ⟨earlier, present, -, moves⟩ := registry.entries uuid entry found
      exact moves.alive (inductionHypothesis uuid earlier present)

/-- A daemon with one image, so that runners are started. -/
def stocked : Daemon :=
  let name (text : String) : FileName := Text.octetsOf text
  initial
    { settings := ⟨⟨[0x2F, 0x72]⟩, 5, 3, 1024, 8192, 8192⟩
      store := ⟨⟨[0x2F]⟩, [], ["k"], default⟩
      runner := ⟨[]⟩
      macs := MacSource.ofOctets }
    ⟨[([name "alpha"], .directory default),
      ([name "1.2.3", name "alpha"], .directory default),
      ([name "k", name "1.2.3", name "alpha"], .file [])], default, []⟩

end Daemon

end VmFleet
