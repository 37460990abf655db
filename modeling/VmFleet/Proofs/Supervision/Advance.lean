/-
This file says once what a step of the daemon does to a single request: how its
record, its phase, its race, its reaper and its outcome go on. The five turns say
what becomes of the deeds; here the registry only matters where the race keeps a
copy of a record. An error is followed from where it arises to the answer, so it
can be told apart which refusals are about memory. Invariants of single requests
are proved along these advances.
-/

import VmFleet.Proofs.Files.Request
import VmFleet.Proofs.Supervision.Ownership

namespace VmFleet

/-! ### Errors that are not about memory -/

/-- The error says that the memory of all machines would be too much. -/
def FleetError.isResourceBound : FleetError → Bool
  | .resourceBound _ _ => true
  | _ => false

/-- Preparing the places of a machine only fails on files. -/
theorem RunDirectory.isResourceBound_of_prepare {places : RunDirectory} {tree : Tree}
    {error : FleetError} (failed : (places.prepare.run tree).1 = .error error) :
    error.isResourceBound = false := by
  unfold prepare FileRequest.doing at failed
  rw [TreeRequest.run_bind, TreeRequest.run_explain] at failed
  rcases made : (TreeRequest.makePath [] places.directory).run tree with ⟨_ | _, left⟩
  · rw [made] at failed
    cases failed
    rfl
  · rw [made] at failed
    change ((TreeRequest.attempt _ >>= _ : FileRequest Unit).run left).1 = _ at failed
    rw [TreeRequest.run_bind, TreeRequest.run_attempt] at failed
    -- a link that was not there is as good as one that was cleared
    rcases removed : (TreeRequest.removeFile [] places.console).run left with ⟨cause | _, _⟩
    · rw [removed] at failed
      cases cause <;> cases failed
      all_goals rfl
    · rw [removed] at failed
      cases failed

/-- A plan is refused for what is missing. -/
theorem BootPlan.isResourceBound_of_make {store : ImageStore} {runner : Path} {vm : Vm}
    {places : RunDirectory} {tree : Tree} {error : FleetError}
    (failed : BootPlan.make store runner vm places tree = .error error) :
    error.isResourceBound = false := by
  simp only [BootPlan.make, throw, throwThe, MonadExceptOf.throw, bind, Except.bind] at failed
  split at failed
  · split at failed
    · cases failed
      rfl
    · split at failed
      · cases failed
        rfl
      · split at failed <;> cases failed
        rfl
  · cases failed
    rfl

/-- An outcome that was settled is never about memory. -/
theorem Boot.isResourceBound_of_answerOf {name : String} {bootTimeout : UInt64}
    {signal : BootSignal} {error : FleetError}
    (failed : Boot.answerOf name bootTimeout signal = .error error) :
    error.isResourceBound = false := by
  cases signal <;> cases failed <;> rfl

/-! ### Outcomes with a record -/

/-- What settles an outcome is what it was or what it is settled with. -/
theorem BootSignal.ready_of_settle {signal status : BootSignal} {vm : Vm}
    (ready : (signal.settle status).1 = .ready vm) : signal = .ready vm ∨ status = .ready vm := by
  unfold settle at ready
  split at ready
  · exact .inr ready
  · exact .inl ready

/-- An outcome that is open after a settlement was open before it. -/
theorem BootSignal.pending_of_settle {signal status : BootSignal}
    (pending : (signal.settle status).1 = .pending) : signal = .pending := by
  cases signal with
  | pending => rfl
  | _ => cases pending

/-- Only an outcome with a record is answered with one. -/
theorem Boot.ready_of_answerOf {name : String} {bootTimeout : UInt64} {signal : BootSignal}
    {vm : Vm} (answered : Boot.answerOf name bootTimeout signal = .ok vm) : signal = .ready vm := by
  cases signal <;> cases answered
  rfl

namespace Daemon

/-! ### Advances -/

/-- How a request goes on in a step that leads to the next daemon. -/
inductive Advance (daemon : Daemon) (event : Event) (next : Daemon) (serial : Nat) (boot : Boot) :
    Boot → Prop
  /-- The machine is admitted. -/
  | admission (draws : Nat → Uuid) (time : UInt64) (vm : Vm)
    (asked : event = .reserve serial draws time)
    (phase : boot.request = .arrived)
    (outcome : (daemon.admission serial boot draws time).outcome = .admitted vm) :
    Advance daemon event next serial boot { boot with vm, request := .reserved }
  /-- The machine is refused. -/
  | refusal (draws : Nat → Uuid) (time : UInt64) (error : FleetError)
    (asked : event = .reserve serial draws time)
    (phase : boot.request = .arrived)
    (outcome : (daemon.admission serial boot draws time).outcome = .refused error) :
    Advance daemon event next serial boot { boot with request := .answered (.error error) }
  /-- The request goes on or breaks off, and nobody else works for it. -/
  | preparation (phase : RequestPhase) (pid : Int)
    (before : boot.request.isAlone = true)
    (after : phase.isAlone = true)
    (blameless : ∀ error, phase = .undoing error → error.isResourceBound = false) :
    Advance daemon event next serial boot { boot with request := phase, pid }
  /-- The request is given up. -/
  | withdrawal (error : FleetError)
    (phase : boot.request = .undoing error) :
    Advance daemon event next serial boot { boot with request := .answered (.error error) }
  /-- The race and the reaper are started. -/
  | handOver
    (phase : boot.request = .started) :
    Advance daemon event next serial boot
      { boot with request := .waiting, race := .listening, reaper := .watching }
  /-- The request is answered with the settled outcome. -/
  | answer
    (phase : boot.request = .waiting)
    (settled : boot.signal.isPending = false) :
    Advance daemon event next serial boot
      { boot with
        request := .answered
          (Boot.answerOf boot.vm.name daemon.setup.settings.bootTimeout boot.signal) }
  /-- The race goes on without a copy of a record. -/
  | race (phase : RacePhase)
    (present : boot.race ≠ .absent)
    (bare : ∀ ready, phase ≠ .recorded ready) :
    Advance daemon event next serial boot { boot with race := phase }
  /-- The race records the address and keeps a copy of the record there is. -/
  | record (address : String)
    (asked : event = .recordAddress serial)
    (phase : boot.race = .heard address) :
    Advance daemon event next serial boot
      { boot with race := .recorded (next.shared.registry.find? boot.vm.uuid) }
  /-- The race or the reaper settles the outcome, if it is still open. -/
  | settlement (status : BootSignal) (race : RacePhase) (reaper : ReaperPhase)
    (present : boot.race ≠ .absent ∨ boot.reaper ≠ .absent)
    (honest : ∀ vm, status = .ready vm → boot.race = .recorded (some vm))
    (kept : ∀ ready, race = .recorded ready → boot.race = .recorded ready) :
    Advance daemon event next serial boot
      { boot with race, reaper, signal := (boot.signal.settle status).1 }
  /-- The reaper goes on. -/
  | reaper (phase : ReaperPhase)
    (present : boot.reaper ≠ .absent) :
    Advance daemon event next serial boot { boot with reaper := phase }

/-- What a step does to the requests: one arrives, one goes on, or none is touched. -/
inductive Advances (daemon : Daemon) (event : Event) (next : Daemon) : Prop
  | arrival (draft : Vm) (boots : next.boots = daemon.boots ++ [Boot.ofDraft draft])
  | course (serial : Nat) (boot after : Boot)
    (found : daemon.boots[serial]? = some boot)
    (onward : Advance daemon event next serial boot after)
    (boots : next.boots = daemon.boots.set serial after)
  | aside (boots : next.boots = daemon.boots)

variable {daemon next : Daemon} {serial : Nat} {boot : Boot}

theorem advances_reserve (found : daemon.boots[serial]? = some boot)
    (phase : boot.request = .arrived) (draws : Nat → Uuid) (time : UInt64) :
    Advances daemon (.reserve serial draws time) (daemon.reserve serial boot draws time) := by
  cases judged : (daemon.admission serial boot draws time).outcome with
  | admitted vm =>
    refine .course serial boot _ found (.admission draws time vm rfl phase judged) ?_
    rw [reserve, judged]
    rfl
  | refused error =>
    refine .course serial boot _ found (.refusal draws time error rfl phase judged) ?_
    rw [reserve, judged]
    rfl
  | broken =>
    refine .course serial boot _ found
      (.preparation .unjudged boot.pid (by rw [phase]; rfl) rfl ?_) ?_
    · rintro _ ⟨⟩
    · rw [reserve, judged]
      rfl

theorem advances_prepare (found : daemon.boots[serial]? = some boot)
    (phase : boot.request = .reserved) :
    Advances daemon (.prepare serial) (daemon.prepare serial boot) := by
  have alone : boot.request.isAlone = true := by rw [phase]; rfl
  rcases prepared : (daemon.placesOf boot).prepare.run daemon.tree with ⟨outcome, tree⟩
  cases planned : outcome.bind fun () =>
      BootPlan.make daemon.setup.store daemon.setup.runner boot.vm (daemon.placesOf boot) tree with
  | ok plan =>
    refine .course serial boot _ found (.preparation (.planned plan) boot.pid alone rfl nofun) ?_
    simp only [prepare, prepared, planned, put]
  | error error =>
    refine .course serial boot _ found (.preparation (.undoing error) boot.pid alone rfl ?_) ?_
    · rintro _ ⟨⟩
      cases outcome with
      | error early =>
        cases planned
        exact RunDirectory.isResourceBound_of_prepare (congrArg Prod.fst prepared)
      | ok done => exact BootPlan.isResourceBound_of_make planned
    · simp only [prepare, prepared, planned, put]

theorem advances_launch {plan : BootPlan} (found : daemon.boots[serial]? = some boot)
    (phase : boot.request = .launching plan) (outcome : Except FleetError Spawned) :
    Advances daemon (.launch serial outcome) (daemon.launch serial boot outcome) := by
  have alone : boot.request.isAlone = true := by rw [phase]; rfl
  obtain ⟨tree, same⟩ := launch_eq daemon serial boot outcome
  rw [same]
  cases outcome with
  | ok spawned =>
    exact .course serial boot _ found (.preparation .started spawned.pid alone rfl nofun) rfl
  | error error =>
    refine .course serial boot _ found (.preparation (.undoing _) boot.pid alone rfl ?_) rfl
    rintro _ ⟨⟩
    rfl

theorem advances_handOver (found : daemon.boots[serial]? = some boot)
    (phase : boot.request = .started) (now : Int) :
    Advances daemon (.handOver serial now) (daemon.handOver serial boot now) := by
  rcases daemon.handOver_cases serial boot now with same | same
  · rw [same]
    exact .course serial boot _ found (.handOver phase) rfl
  · rw [same]
    exact .course serial boot _ found
      (.preparation .abandoned boot.pid (by rw [phase]; rfl) rfl nofun) rfl

theorem advances_settleAddress {ready : Option Vm} (found : daemon.boots[serial]? = some boot)
    (phase : boot.race = .recorded ready) :
    Advances daemon (.settleAddress serial) (daemon.settleAddress serial boot ready) := by
  refine .course serial boot _ found
    (.settlement _ .finished boot.reaper (.inl (by rw [phase]; exact nofun)) ?_ nofun) rfl
  intro vm told
  cases ready with
  | none => cases told
  | some copy =>
    cases told
    exact phase

/-- Every step lets the requests go on in one of these ways. -/
theorem advances_of_rule {event : Event} (rule : Rule daemon event next) :
    Advances daemon event next := by
  have listening : ∀ {boot : Boot}, boot.race = .listening → boot.race ≠ .absent :=
    fun phase => by rw [phase]; exact nofun
  cases rule with
  | submit draft => exact .arrival draft rfl
  | reserve draws time found phase => exact advances_reserve found phase draws time
  | prepare found phase => exact advances_prepare found phase
  | rollBack found phase => exact .course _ _ _ found (.withdrawal _ phase) rfl
  | @announce _ boot plan found phase =>
    exact .course _ _ _ found
      (.preparation (.launching plan) boot.pid (by rw [phase]; rfl) rfl nofun) rfl
  | launch outcome found phase => exact advances_launch found phase outcome
  | handOver now found phase => exact advances_handOver found phase now
  | answer found phase settled => exact .course _ _ _ found (.answer phase settled) rfl
  | hear address found phase =>
    exact .course _ _ _ found (.race (.heard address) (listening phase) nofun) rfl
  | fallSilent found phase => exact .course _ _ _ found (.race .deaf (listening phase) nofun) rfl
  | strike found phase => exact .course _ _ _ found (.race .struck phase.ne_absent nofun) rfl
  | notice found phase settled =>
    exact .course _ _ _ found (.race .finished phase.ne_absent nofun) rfl
  | recordAddress found phase => exact .course _ _ _ found (.record _ rfl phase) rfl
  | settleAddress found phase => exact advances_settleAddress found phase
  | @settleDeadline _ boot found phase =>
    refine .course _ _ _ found
      (.settlement .timedOut _ boot.reaper (.inl (by rw [phase]; exact nofun)) nofun ?_) rfl
    intro ready
    split <;> exact nofun
  | markFailed found phase =>
    exact .course _ _ _ found (.race .finished (by rw [phase]; exact nofun) nofun) rfl
  | exit found phase => exact .course _ _ _ found (.reaper _ (by rw [phase]; exact nofun)) rfl
  | deregister found phase => exact .course _ _ _ found (.reaper _ (by rw [phase]; exact nofun)) rfl
  | @settleExit _ boot found phase =>
    exact .course _ _ _ found
      (.settlement .terminatedEarly boot.race _ (.inr (by rw [phase]; exact nofun)) nofun
        fun _ => id) rfl
  | clearConsole found phase =>
    exact .course _ _ _ found (.reaper _ (by rw [phase]; exact nofun)) rfl
  | finish found phase => exact .course _ _ _ found (.reaper _ (by rw [phase]; exact nofun)) rfl
  | stop targets => exact .aside rfl
  | shutDown => exact .aside rfl
  | listImages => exact .aside boots_listImages
  | takeImage channel version => exact .aside (boots_takeImage channel version)
  | deleteImage channel version => exact .aside rfl
  | disturb tree => exact .aside rfl

/-- A request stays in a step or goes on from where it was. -/
theorem Advances.onward {event : Event} (advances : Advances daemon event next) {after : Boot}
    (found : daemon.boots[serial]? = some boot) (present : next.boots[serial]? = some after) :
    after = boot ∨ Advance daemon event next serial boot after := by
  cases advances with
  | arrival draft boots =>
    rw [boots, List.getElem?_append_left (List.getElem?_eq_some_iff.mp found).1, found] at present
    exact .inl (Option.some.inj present).symm
  | course other going onward there advance boots =>
    rw [boots, boots_set there] at present
    split at present
    · rename_i same
      subst same
      obtain rfl := Option.some.inj (found.symm.trans there)
      obtain rfl := Option.some.inj present
      exact .inr advance
    · exact .inl (Option.some.inj (present.symm.trans found))
  | aside boots =>
    rw [boots, found] at present
    exact .inl (Option.some.inj present).symm

/-- A request after a step has just arrived, or it was there before. -/
theorem Advances.origin {event : Event} (advances : Advances daemon event next) {after : Boot}
    (present : next.boots[serial]? = some after) :
    (∃ draft, after = .ofDraft draft) ∨ ∃ boot, daemon.boots[serial]? = some boot ∧
      (after = boot ∨ Advance daemon event next serial boot after) := by
  cases found : daemon.boots[serial]? with
  | some boot => exact .inr ⟨boot, rfl, advances.onward found present⟩
  | none =>
    cases advances with
    | arrival draft boots =>
      rw [boots, List.getElem?_append, found] at present
      split at present
      · cases present
      · exact .inl ⟨draft, List.mem_singleton.mp (List.mem_of_getElem? present)⟩
    | course other going onward there advance boots =>
      rw [boots, boots_set there, found] at present
      split at present
      · rename_i same
        rw [same, found] at there
        cases there
      · cases present
    | aside boots =>
      rw [boots, found] at present
      cases present

/-! ### What an advance makes of an outcome -/

variable {event : Event} {after : Boot} {vm : Vm}

/-- An outcome with a record was there before, or the race has just kept that record. -/
theorem Advance.ready (advance : Advance daemon event next serial boot after)
    (ready : after.signal = .ready vm) :
    boot.signal = .ready vm ∨ boot.race = .recorded (some vm) := by
  cases advance with
  | settlement status race reaper present honest kept =>
    exact (BootSignal.ready_of_settle ready).imp_right (honest vm)
  | _ => exact .inl ready

/-- An outcome that is open was open before. -/
theorem Advance.pending (advance : Advance daemon event next serial boot after)
    (pending : after.signal = .pending) : boot.signal = .pending := by
  cases advance with
  | settlement status race reaper present honest kept => exact BootSignal.pending_of_settle pending
  | _ => exact pending

/-- A request that is answered with a record has that record as its outcome. -/
theorem Advance.answered (advance : Advance daemon event next serial boot after)
    (before : boot.request = .answered (.ok vm) → boot.signal = .ready vm)
    (answered : after.request = .answered (.ok vm)) : after.signal = .ready vm := by
  cases advance with
  | admission | refusal | withdrawal | handOver => cases answered
  | preparation phase pid alone still blameless =>
    rw [show phase = _ from answered] at still
    cases still
  | answer phase settled =>
    injection answered with answered
    exact Boot.ready_of_answerOf answered
  | race | record | reaper => exact before answered
  | settlement status race reaper present honest kept =>
    show (boot.signal.settle status).1 = _
    rw [before answered]
    rfl

end Daemon

end VmFleet
