/-
This file says how long the console of a machine stands. Only to prepare a machine or to
clear its console takes a console away, and only that of its own identity. But a reaper
clears the console after it has given the identity back, so by then the console may be
that of a later machine. The console of a registered machine stands for as long as the
machine is registered exactly if no reaper trails behind: none that has given the identity
back is still to clear the console.
-/

import VmFleet.Proofs.Boot.Console
import VmFleet.Proofs.Supervision.Enrolment
import VmFleet.Proofs.Supervision.Reuse

namespace VmFleet

/-- No images are looked at or deleted, and nobody else changes the files. -/
def Event.isCalm : Event → Bool
  | .listImages | .deleteImage _ _ | .disturb _ => false
  | _ => true

/-- The places of the machine have been prepared, and nobody else clears its console yet. -/
def RequestPhase.isUnderWay : RequestPhase → Bool
  | .planned _ | .launching _ | .undoing _ | .started | .abandoned => true
  | .arrived | .unjudged | .reserved | .waiting | .answered _ => false

/-- The console is still to be cleared. -/
def ReaperPhase.isUnderWay : ReaperPhase → Bool
  | .watching | .exited | .deregistered | .settled => true
  | .absent | .grace | .finished => false

/-- The identity was given back, and the console is still to be cleared. -/
def ReaperPhase.trails : ReaperPhase → Bool
  | .deregistered | .settled => true
  | _ => false

/-- From the preparation of the places to the clearing of the console. -/
def Boot.isUnderWay (boot : Boot) : Bool :=
  boot.request.isUnderWay || boot.reaper.isUnderWay

/-- Who is under way is registered, or its reaper trails. -/
theorem Boot.holds_or_trails {boot : Boot} (underWay : boot.isUnderWay = true) :
    boot.holds = true ∨ boot.reaper.trails = true := by
  unfold isUnderWay at underWay
  unfold holds
  rcases Bool.or_eq_true_iff.mp underWay with early | late
  · left
    cases phase : boot.request <;> rw [phase] at early <;> first | rfl | cases early
  · cases phase : boot.reaper with
    | absent | grace | finished =>
      rw [phase] at late
      cases late
    | watching | exited => exact .inl (Bool.or_true _)
    | deregistered | settled => exact .inr rfl

/-- Somebody works for a request that is registered. -/
theorem Boot.not_isDormant_of_busy {boot : Boot} (busy : boot.holds = true) : ¬ boot.IsDormant := by
  rintro ⟨-, reaper, phase | phase | ⟨error, phase⟩⟩ <;>
  · rw [holds, reaper, phase] at busy
    cases busy

/-- A request that is registered has been judged. -/
theorem Boot.Phased.begun {boot : Boot} (phased : boot.Phased) (busy : boot.holds = true) :
    boot.request ≠ .arrived := by
  intro phase
  have absent := (phased (by rw [phase]; rfl)).2
  rw [holds, phase, absent] at busy
  cases busy

/-- A reaper that comes to clear the console has given the identity back. -/
theorem Boot.Phased.free_of_settled {boot : Boot} (phased : boot.Phased)
    (phase : boot.reaper = .settled) : boot.holds = false := by
  have handed : boot.request.isAlone = false := by
    rw [Bool.eq_false_iff]
    intro alone
    have absent := (phased alone).2
    rw [phase] at absent
    cases absent
  rw [holds, RequestPhase.holds_of_isAlone handed, phase]
  rfl

namespace Daemon

/-- The console of an identity stands: something that is no directory. -/
def showsConsole (daemon : Daemon) (uuid : String) : Bool :=
  match daemon.tree.entry [] (RunDirectory.ofUuid daemon.setup.settings.runRoot uuid).console with
  | .ok (.directory _) | .error _ => false
  | .ok _ => true

/-- A reaper that has given the identity back is still to clear the console. -/
def Trails (daemon : Daemon) (uuid : String) : Prop :=
  ∃ (serial : Nat) (boot : Boot), daemon.boots[serial]? = some boot ∧ boot.vm.uuid = uuid ∧
    boot.reaper.trails = true

variable {daemon next later : Daemon} {event : Event} {events : List Event} {serial : Nat}
  {boot : Boot} {uuid : String} {identity : Uuid}

theorem showsConsole_iff_entry : daemon.showsConsole uuid = true ↔ ∃ node,
    daemon.tree.entry [] (RunDirectory.ofUuid daemon.setup.settings.runRoot uuid).console =
      .ok node ∧ ∀ modified, node ≠ .directory modified := by
  unfold showsConsole
  rcases daemon.tree.entry [] (RunDirectory.ofUuid _ uuid).console with _ | (_ | _ | _ | _) <;> simp

theorem showsConsole_iff : daemon.showsConsole uuid = true ↔ ∃ target kind,
    daemon.tree.resolve ⟨false, false⟩ [] (Layout.console daemon.setup.settings.runRoot uuid) =
      .ok target ∧ daemon.tree.kindAt? target = some kind ∧ kind ≠ .directory default := by
  rw [showsConsole_iff_entry]
  constructor
  · rintro ⟨node, stands, inner⟩
    obtain ⟨target, leads, found⟩ := Tree.entry_eq_ok.mp stands
    refine ⟨target, node.kind, leads, congrArg (Option.map _) found, ?_⟩
    cases node with
    | directory modified => exact absurd rfl (inner modified)
    | _ => exact nofun
  · rintro ⟨target, kind, leads, stands, apart⟩
    obtain ⟨node, found, rfl⟩ := Option.map_eq_some_iff.mp stands
    refine ⟨node, Tree.entry_eq_ok.mpr ⟨target, leads, found⟩, ?_⟩
    rintro modified rfl
    exact apart rfl

/-! ### What takes a console away -/

/-- The requests that somebody works for are known by UUIDs. -/
def IsNamed (daemon : Daemon) : Prop :=
  ∀ (serial : Nat) (boot : Boot), daemon.boots[serial]? = some boot → ¬ boot.IsDormant →
    ∃ identity : Uuid, boot.vm.uuid = identity.canonical

theorem isNamed_of_reachable {setup : Setup} {tree : Tree} (macs : setup.macs = MacSource.ofOctets)
    (reached : Reachable (initial setup tree) daemon) : daemon.IsNamed := by
  intro serial boot found awake
  have made := (enrolled_of_reachable reached serial boot found).isMadeOf awake
  obtain ⟨identity, -, uuid, -⟩ := made.isIdentified (identified_of_reachable macs reached).macs
  exact ⟨identity, uuid⟩

/-- What the steps of a calm run make of the files: more of them, or one console fewer. -/
inductive Handles (daemon : Daemon) (event : Event) (next : Daemon) : Prop
  | growth (grown : daemon.tree.Spares [] next.tree)
  | clearing (serial : Nat) (boot : Boot) (identity : Uuid)
    (found : daemon.boots[serial]? = some boot) (uuid : boot.vm.uuid = identity.canonical)
    (asked : event = .prepare serial ∧ boot.request = .reserved ∨
      event = .clearConsole serial ∧ boot.reaper = .settled)
    (clears : Tree.ClearsConsole daemon.setup.settings.runRoot identity.canonical daemon.tree
      next.tree)

theorem handles_of_rule (named : daemon.IsNamed) (plain : daemon.tree.IsPlainlyNamed)
    (rule : Rule daemon event next) (calm : event.isCalm = true) : Handles daemon event next := by
  cases rule with
  | @prepare serial boot found phase =>
    obtain ⟨identity, uuid⟩ :=
      named serial boot found (Boot.not_isDormant_of_holds (by rw [phase]; rfl))
    refine .clearing serial boot identity found uuid (.inl ⟨rfl, phase⟩) ?_
    simp only [prepare, placesOf, uuid]
    exact RunDirectory.clearsConsole_of_prepare _ identity daemon.tree plain
  | @clearConsole serial boot found phase =>
    obtain ⟨identity, uuid⟩ :=
      named serial boot found (Boot.not_isDormant_of_reaper phase (by decide))
    refine .clearing serial boot identity found uuid (.inr ⟨rfl, phase⟩) ?_
    simp only [clearConsole, placesOf, uuid]
    exact RunDirectory.clearsConsole_of_removeFile _ identity daemon.tree plain
  | launch outcome found phase =>
    refine .growth ?_
    unfold launch
    split
    · simp only
      split
      · exact TreeRequest.grows_writeFile _ _ _ _
      · exact Tree.spares_self _
    · exact Tree.spares_self _
  | takeImage channel version =>
    obtain ⟨media, same⟩ := takeImage_eq daemon channel version
    rw [same]
    exact .growth (Tree.spares_self _)
  | @handOver serial boot now found phase =>
    obtain ⟨after, same⟩ := handOver_eq daemon serial boot now
    rw [same]
    exact .growth (Tree.spares_self _)
  | listImages | deleteImage | disturb => cases calm
  | _ => exact .growth (Tree.spares_self _)

theorem Handles.isPlainlyNamed (handles : Handles daemon event next)
    (plain : daemon.tree.IsPlainlyNamed) : next.tree.IsPlainlyNamed := by
  cases handles with
  | growth grown => exact grown.isPlainlyNamed plain
  | clearing serial boot identity found uuid asked clears => exact clears.isPlainlyNamed plain

/-- In a calm run no link comes to stand under the name of a console. -/
theorem isPlainlyNamed_of_run {setup : Setup} {tree : Tree}
    (macs : setup.macs = MacSource.ofOctets) (reached : Reachable (initial setup tree) daemon)
    (plain : daemon.tree.IsPlainlyNamed) (ran : daemon.run? events = some later)
    (calm : ∀ event ∈ events, event.isCalm = true) : later.tree.IsPlainlyNamed := by
  induction events generalizing daemon with
  | nil =>
    obtain rfl := Option.some.inj ran
    exact plain
  | cons event events inductionHypothesis =>
    obtain ⟨next, stepped, rest⟩ := run?_cons_eq_some.mp ran
    have handles := handles_of_rule (isNamed_of_reachable macs reached) plain
      (rule_of_step? stepped) (calm event List.mem_cons_self)
    exact inductionHypothesis (.step event reached stepped) (handles.isPlainlyNamed plain) rest
      fun event member => calm event (List.mem_cons_of_mem _ member)

/-- A console stands on, unless a machine of its identity is prepared or cleared away. -/
theorem Handles.shows_or_clears (handles : Handles daemon event next)
    (plain : daemon.tree.IsPlainlyNamed) (setup : next.setup = daemon.setup)
    (shows : daemon.showsConsole identity.canonical = true) :
    next.showsConsole identity.canonical = true ∨
      ∃ (serial : Nat) (boot : Boot), daemon.boots[serial]? = some boot ∧
        boot.vm.uuid = identity.canonical ∧
        (event = .prepare serial ∧ boot.request = .reserved ∨
          event = .clearConsole serial ∧ boot.reaper = .settled) := by
  obtain ⟨target, kind, leads, stands, apart⟩ := showsConsole_iff.mp shows
  rw [showsConsole_iff, setup]
  cases handles with
  | growth grown =>
    exact .inl ⟨target, kind, grown.resolve rfl (by exact nofun) rfl leads,
      grown.kept _ _ rfl stands, apart⟩
  | clearing serial boot other found uuid asked clears =>
    by_cases same : other = identity
    · exact .inr ⟨serial, boot, found, same ▸ uuid, asked⟩
    · obtain ⟨leads, stands⟩ := clears.kept plain same leads stands
      exact .inl ⟨target, kind, leads, stands, apart⟩

/-- A reaper that comes to clear the console of its identity clears it, whoever made it. -/
theorem exists_clearConsole (plain : daemon.tree.IsPlainlyNamed)
    (found : daemon.boots[serial]? = some boot) (uuid : boot.vm.uuid = identity.canonical)
    (phase : boot.reaper = .settled) (shows : daemon.showsConsole identity.canonical = true) :
    ∃ next, daemon.step? (.clearConsole serial) = some next ∧ next.shared = daemon.shared ∧
      next.showsConsole identity.canonical = false := by
  refine ⟨_, step?_of_rule (.clearConsole found phase), rfl, ?_⟩
  obtain ⟨node, stands, inner⟩ := showsConsole_iff_entry.mp shows
  obtain ⟨cause, gone⟩ := RunDirectory.entry_console_of_clearConsole plain stands inner
  rw [← uuid] at gone ⊢
  have gone : (daemon.clearConsole serial boot).tree.entry []
      (RunDirectory.ofUuid daemon.setup.settings.runRoot boot.vm.uuid).console = .error cause := gone
  unfold showsConsole
  rw [show (daemon.clearConsole serial boot).setup = daemon.setup from rfl, gone]

/-! ### Who is under way -/

/-- A request that has been judged keeps its record, and is prepared once. -/
theorem Proceeds.kept (proceeds : Proceeds daemon event next)
    (found : daemon.boots[serial]? = some boot) (begun : boot.request ≠ .arrived) :
    ∃ after, next.boots[serial]? = some after ∧ after.vm = boot.vm ∧ after.request ≠ .arrived ∧
      (boot.IsPrepared → after.IsPrepared) := by
  have same : ∃ after, some boot = some after ∧ after.vm = boot.vm ∧ after.request ≠ .arrived ∧
      (boot.IsPrepared → after.IsPrepared) := ⟨boot, rfl, rfl, begun, id⟩
  cases proceeds with
  | arrival draft boots =>
    rwa [boots, List.getElem?_append_left (List.getElem?_eq_some_iff.mp found).1, found]
  | judgement other arriving draws time present phase judged =>
    rw [judged, boots_reserve, boots_set present]
    split
    · rename_i here
      subst here
      obtain rfl := Option.some.inj (found.symm.trans present)
      exact absurd phase begun
    · rwa [found]
  | course other going after present onward boots =>
    rw [boots, boots_set present]
    split
    · rename_i here
      subst here
      obtain rfl := Option.some.inj (found.symm.trans present)
      exact ⟨after, rfl, onward.vm, onward.begun begun, onward.isPrepared⟩
    · rwa [found]
  | aside boots => rwa [boots, found]

theorem kept_of_run (ran : daemon.run? events = some later)
    (found : daemon.boots[serial]? = some boot) (begun : boot.request ≠ .arrived) :
    ∃ after, later.boots[serial]? = some after ∧ after.vm = boot.vm ∧ after.request ≠ .arrived ∧
      (boot.IsPrepared → after.IsPrepared) := by
  induction events generalizing daemon boot with
  | nil =>
    obtain rfl := Option.some.inj ran
    exact ⟨boot, found, rfl, begun, id⟩
  | cons event events inductionHypothesis =>
    obtain ⟨next, stepped, rest⟩ := run?_cons_eq_some.mp ran
    obtain ⟨middle, present, vm, begun, prepared⟩ :=
      (proceeds_of_rule (rule_of_step? stepped)).kept found begun
    obtain ⟨after, present, vm', begun, prepared'⟩ := inductionHypothesis rest present begun
    exact ⟨after, present, vm'.trans vm, begun, prepared' ∘ prepared⟩

/-- Nobody gets under way but by being prepared. -/
theorem Owned.isUnderWay_of_rule (owned : daemon.Owned) (rule : Rule daemon event next)
    {after : Boot} (present : next.boots[serial]? = some after)
    (underWay : after.isUnderWay = true) :
    ∃ before : Boot, daemon.boots[serial]? = some before ∧ before.vm = after.vm ∧
      (before.isUnderWay = true ∨ event = .prepare serial ∧ before.request = .reserved) := by
  -- a step that puts one request back in another phase
  have back : ∀ {other : Nat} {boot moved : Boot}, daemon.boots[other]? = some boot →
      next.boots = daemon.boots.set other moved →
      (moved.isUnderWay = true → boot.vm = moved.vm ∧
        (boot.isUnderWay = true ∨ event = .prepare other ∧ boot.request = .reserved)) →
      ∃ before : Boot, daemon.boots[serial]? = some before ∧ before.vm = after.vm ∧
        (before.isUnderWay = true ∨ event = .prepare serial ∧ before.request = .reserved) := by
    intro other boot moved found boots before
    rw [boots, boots_set found] at present
    split at present
    · rename_i here
      subst here
      obtain rfl := Option.some.inj present
      exact ⟨boot, found, before underWay⟩
    · exact ⟨after, present, rfl, .inl underWay⟩
  cases rule with
  | submit draft =>
    rw [show (daemon.submit draft).boots = daemon.boots ++ [Boot.ofDraft draft] from rfl,
      List.getElem?_append] at present
    split at present
    · exact ⟨after, present, rfl, .inl underWay⟩
    · obtain rfl := List.mem_singleton.mp (List.mem_of_getElem? present)
      cases underWay
  | @reserve other boot draws time found phase =>
    have absent := (owned.phased other boot found (by rw [phase]; rfl)).2
    refine back found (boots_reserve other boot draws time) fun underWay => ?_
    unfold Boot.ruled at underWay
    split at underWay <;> simp [Boot.isUnderWay, absent, RequestPhase.isUnderWay,
      ReaperPhase.isUnderWay] at underWay
  | prepare found phase => exact back found rfl fun _ => ⟨rfl, .inr ⟨rfl, phase⟩⟩
  | @launch other boot plan outcome found phase =>
    obtain ⟨tree, same⟩ := launch_eq daemon other boot outcome
    refine back found (congrArg Daemon.boots same) fun _ => ⟨?_, .inl ?_⟩
    · cases outcome <;> rfl
    · simp [Boot.isUnderWay, RequestPhase.isUnderWay, phase]
  | @handOver other boot now found phase =>
    rcases daemon.handOver_cases other boot now with same | same <;>
    · refine back found (congrArg Daemon.boots same) fun _ => ⟨rfl, .inl ?_⟩
      simp [Boot.isUnderWay, RequestPhase.isUnderWay, phase]
  | rollBack found phase | announce found phase =>
    exact back found rfl fun _ =>
      ⟨rfl, .inl (by simp [Boot.isUnderWay, RequestPhase.isUnderWay, phase])⟩
  | exit found phase | deregister found phase | settleExit found phase
  | clearConsole found phase =>
    exact back found rfl fun _ =>
      ⟨rfl, .inl (by simp [Boot.isUnderWay, ReaperPhase.isUnderWay, phase])⟩
  | answer found phase | finish found phase =>
    refine back found rfl fun underWay => ⟨rfl, .inl ?_⟩
    simpa [Boot.isUnderWay, RequestPhase.isUnderWay, ReaperPhase.isUnderWay, phase] using underWay
  | hear _ found | fallSilent found | strike found | notice found | recordAddress found
  | settleAddress found | settleDeadline found | markFailed found =>
    exact back found rfl fun underWay => ⟨rfl, .inl underWay⟩
  | stop | shutDown | deleteImage | disturb => exact ⟨after, present, rfl, .inl underWay⟩
  | listImages => exact ⟨after, boots_listImages ▸ present, rfl, .inl underWay⟩
  | takeImage channel version =>
    exact ⟨after, boots_takeImage channel version ▸ present, rfl, .inl underWay⟩

/-! ### How long a console stands -/

/-- A request that has been prepared is alone under its identity, and its console stands. -/
structure Guards (daemon : Daemon) (serial : Nat) (identity : Uuid) : Prop where
  plain : daemon.tree.IsPlainlyNamed
  prepared : ∃ boot : Boot, daemon.boots[serial]? = some boot ∧ boot.IsPrepared
  alone : ∀ (other : Nat) (another : Boot), daemon.boots[other]? = some another →
    another.vm.uuid = identity.canonical → another.isUnderWay = true → other = serial
  shows : daemon.showsConsole identity.canonical = true

/-- Somebody comes for the console of a request: another request of the identity is prepared, or
its own reaper clears the console. -/
def Takes (daemon : Daemon) (event : Event) (serial : Nat) (uuid : String) : Prop :=
  ∃ (other : Nat) (another : Boot), daemon.boots[other]? = some another ∧
    another.vm.uuid = uuid ∧
    (event = .prepare other ∧ another.request = .reserved ∧ other ≠ serial ∨
      event = .clearConsole other ∧ another.reaper = .settled ∧ other = serial)

/-- In a calm step the console stands on, unless somebody comes for it. -/
theorem Guards.step (guards : daemon.Guards serial identity) (owned : daemon.Owned)
    (named : daemon.IsNamed) (rule : Rule daemon event next) (calm : event.isCalm = true) :
    next.Guards serial identity ∨ daemon.Takes event serial identity.canonical := by
  by_cases taken : daemon.Takes event serial identity.canonical
  · exact .inr taken
  have handles := handles_of_rule named guards.plain rule calm
  obtain ⟨boot, found, prepared⟩ := guards.prepared
  left
  refine ⟨handles.isPlainlyNamed guards.plain, ?_, fun other another present uuid underWay => ?_, ?_⟩
  · obtain ⟨after, present, -, -, onward⟩ := (proceeds_of_rule rule).kept found prepared.1
    exact ⟨after, present, onward prepared⟩
  · obtain ⟨before, there, same, underWay | ⟨asked, phase⟩⟩ :=
      owned.isUnderWay_of_rule rule present underWay
    · exact guards.alone other before there (same ▸ uuid) underWay
    · by_contra apart
      exact taken ⟨other, before, there, same ▸ uuid, .inl ⟨asked, phase, apart⟩⟩
  · rcases handles.shows_or_clears guards.plain (setup_of_rule rule) guards.shows with
      shows | ⟨other, another, present, uuid, ⟨asked, phase⟩ | ⟨asked, phase⟩⟩
    · exact shows
    · refine absurd ⟨other, another, present, uuid, .inl ⟨asked, phase, ?_⟩⟩ taken
      rintro rfl
      obtain rfl := Option.some.inj (found.symm.trans present)
      exact prepared.2 phase
    · have same := guards.alone other another present uuid
        (by simp [Boot.isUnderWay, ReaperPhase.isUnderWay, phase])
      exact absurd ⟨other, another, present, uuid, .inr ⟨asked, phase, same⟩⟩ taken

/-- In a calm run the console stands until somebody comes for it. -/
theorem Guards.exists_takes {setup : Setup} {tree : Tree} (guards : daemon.Guards serial identity)
    (macs : setup.macs = MacSource.ofOctets) (reached : Reachable (initial setup tree) daemon)
    (ran : daemon.run? events = some later) (calm : ∀ event ∈ events, event.isCalm = true)
    (gone : later.showsConsole identity.canonical = false) :
    ∃ earlier event rest middle, events = earlier ++ event :: rest ∧
      daemon.run? earlier = some middle ∧ middle.run? (event :: rest) = some later ∧
      middle.Takes event serial identity.canonical := by
  induction events generalizing daemon with
  | nil =>
    obtain rfl := Option.some.inj ran
    rw [guards.shows] at gone
    cases gone
  | cons event events inductionHypothesis =>
    obtain ⟨next, stepped, rest⟩ := run?_cons_eq_some.mp ran
    rcases guards.step (owned_of_reachable reached) (isNamed_of_reachable macs reached)
        (rule_of_step? stepped) (calm event List.mem_cons_self) with guards | takes
    · obtain ⟨earlier, event', others, middle, rfl, before, onward, takes⟩ :=
        inductionHypothesis guards (.step event reached stepped) rest
          fun event member => calm event (List.mem_cons_of_mem _ member)
      exact ⟨event :: earlier, event', others, middle, rfl,
        run?_cons_eq_some.mpr ⟨next, stepped, before⟩, onward, takes⟩
    · exact ⟨[], event, events, daemon, rfl, rfl, ran, takes⟩

/-- Where no reaper trails, a registered machine is the only one of its identity under way. -/
theorem Owned.alone_of_registers (owned : daemon.Owned)
    (found : daemon.boots[serial]? = some boot) (registers : daemon.Registers serial)
    (clear : ¬ daemon.Trails boot.vm.uuid) (other : Nat) (another : Boot)
    (present : daemon.boots[other]? = some another) (uuid : another.vm.uuid = boot.vm.uuid)
    (underWay : another.isUnderWay = true) : other = serial := by
  obtain ⟨_, again, holds⟩ := (owned.registers_iff serial).mp registers
  obtain rfl := Option.some.inj (found.symm.trans again)
  rcases Boot.holds_or_trails underWay with busy | trails
  · exact owned.serial_eq present busy found holds uuid
  · exact absurd ⟨other, another, present, uuid, trails⟩ clear

/-- A reaper that trails can clear the console while everything stays registered. -/
theorem Trails.exists_gone (plain : daemon.tree.IsPlainlyNamed)
    (trails : daemon.Trails identity.canonical)
    (shows : daemon.showsConsole identity.canonical = true) :
    ∃ events later, daemon.run? events = some later ∧ (∀ event ∈ events, event.isCalm = true) ∧
      later.shared = daemon.shared ∧ later.showsConsole identity.canonical = false := by
  obtain ⟨serial, boot, found, uuid, trails⟩ := trails
  cases phase : boot.reaper with
  | settled =>
    obtain ⟨later, stepped, shared, gone⟩ := exists_clearConsole plain found uuid phase shows
    exact ⟨[.clearConsole serial], later, run?_cons_eq_some.mpr ⟨later, stepped, rfl⟩,
      by simp [Event.isCalm], shared, gone⟩
  | deregistered =>
    obtain ⟨another, present, same, settled⟩ : ∃ another,
        (daemon.settleExit serial boot).boots[serial]? = some another ∧ another.vm = boot.vm ∧
          another.reaper = .settled :=
      ⟨_, (boots_set found _ serial).trans (if_pos rfl), rfl, rfl⟩
    -- the settlement leaves the files alone
    have plain : (daemon.settleExit serial boot).tree.IsPlainlyNamed := plain
    obtain ⟨later, stepped, shared, gone⟩ :=
      exists_clearConsole plain present (same ▸ uuid) settled shows
    exact ⟨[.settleExit serial, .clearConsole serial], later,
      run?_cons_eq_some.mpr ⟨_, step?_of_rule (.settleExit found phase),
        run?_cons_eq_some.mpr ⟨later, stepped, rfl⟩⟩, by simp [Event.isCalm], shared, gone⟩
  | absent | watching | exited | grace | finished =>
    rw [phase] at trails
    cases trails

/-- Whose entry is gone at some moment is not registered later. -/
theorem Owned.not_registers_of_run {middle : Daemon} (owned : middle.Owned)
    (ran : middle.run? events = some later) (found : middle.boots[serial]? = some boot)
    (free : boot.holds = false) (begun : boot.request ≠ .arrived) : ¬ later.Registers serial :=
  (owned.run ran).not_registers (Past.run ⟨boot, found, free, begun⟩ ran).2

/-! ### The result -/

section Result

variable {setup : Setup} {tree : Tree} (macs : setup.macs = MacSource.ofOctets)
  (reached : Reachable (initial setup tree) daemon) (plain : daemon.tree.IsPlainlyNamed)
  (found : daemon.boots[serial]? = some boot) (registers : daemon.Registers serial)
  (prepared : boot.IsPrepared) (shows : daemon.showsConsole boot.vm.uuid = true)
  (clear : ¬ daemon.Trails boot.vm.uuid)
  (ran : daemon.run? events = some later) (calm : ∀ event ∈ events, event.isCalm = true)

include macs reached plain found registers prepared shows clear ran calm

/-- Where no reaper trails, somebody has to come for the console of a registered machine. -/
theorem exists_takes_of_registers (gone : later.showsConsole boot.vm.uuid = false) :
    ∃ earlier event rest middle, events = earlier ++ event :: rest ∧
      daemon.run? earlier = some middle ∧ middle.run? (event :: rest) = some later ∧
      middle.Takes event serial boot.vm.uuid := by
  have owned := owned_of_reachable reached
  obtain ⟨_, again, holds⟩ := (owned.registers_iff serial).mp registers
  obtain rfl := Option.some.inj (found.symm.trans again)
  obtain ⟨identity, uuid⟩ := isNamed_of_reachable macs reached serial boot found
    (Boot.not_isDormant_of_busy holds)
  have alone := owned.alone_of_registers found registers clear
  rw [uuid] at shows gone alone ⊢
  have guards : daemon.Guards serial identity := ⟨plain, ⟨boot, found, prepared⟩, alone, shows⟩
  exact guards.exists_takes macs reached ran calm gone

/-- Where no reaper trails, the console of a registered machine stands until its own reaper
clears it or a machine of the identity that is registered later is prepared. -/
theorem cleared_or_prepared (gone : later.showsConsole boot.vm.uuid = false) :
    .clearConsole serial ∈ events ∨ ∃ (other : Nat) (another : Boot),
      later.boots[other]? = some another ∧ another.vm.uuid = boot.vm.uuid ∧
      ¬ daemon.Registers other ∧ .prepare other ∈ events := by
  obtain ⟨earlier, event, rest, middle, rfl, before, onward, other, another, present, uuid,
      ⟨rfl, phase, apart⟩ | ⟨rfl, -, rfl⟩⟩ :=
    exists_takes_of_registers macs reached plain found registers prepared shows clear ran calm gone
  · have owned := owned_of_reachable reached
    obtain ⟨after, there, same, -⟩ := kept_of_run onward present (by
      rw [phase]
      exact nofun)
    refine .inr ⟨other, after, there, same ▸ uuid, fun early => ?_, by simp⟩
    -- who is registered already has its identity already
    obtain ⟨first, earliest, holds⟩ := (owned.registers_iff other).mp early
    obtain ⟨_, again, kept, -⟩ :=
      kept_of_run before earliest (Boot.Phased.begun (owned.phased _ _ earliest) holds)
    obtain rfl := Option.some.inj (present.symm.trans again)
    obtain ⟨_, itself, busy⟩ := (owned.registers_iff serial).mp registers
    obtain rfl := Option.some.inj (found.symm.trans itself)
    exact apart (owned.serial_eq earliest holds found busy (kept ▸ uuid))
  · exact .inl (by simp)

/-- Where no reaper trails, the console of a registered machine stands for as long as the
machine is registered. -/
theorem shows_of_registers (still : later.Registers serial) :
    later.showsConsole boot.vm.uuid = true := by
  by_contra gone
  rw [Bool.not_eq_true] at gone
  obtain ⟨earlier, event, rest, middle, -, before, onward, other, another, present, uuid, what⟩ :=
    exists_takes_of_registers macs reached plain found registers prepared shows clear ran calm gone
  have owned := (owned_of_reachable reached).run before
  obtain ⟨own, there, same, begun, -⟩ := kept_of_run before found prepared.1
  have holds : own.holds = true := by
    by_contra free
    rw [Bool.not_eq_true] at free
    exact owned.not_registers_of_run onward there free begun still
  rcases what with ⟨-, phase, apart⟩ | ⟨-, phase, rfl⟩
  · have busy : another.holds = true := by simp [Boot.holds, RequestPhase.holds, phase]
    exact apart (owned.serial_eq present busy there holds (uuid.trans (same ▸ rfl)))
  · obtain rfl := Option.some.inj (present.symm.trans there)
    rw [Boot.Phased.free_of_settled (owned.phased _ _ present) phase] at holds
    cases holds

end Result

/-- How long the console of a machine stands while the machines alone change the files and no
link stands under the name of a console or of a machine's directory. A step that takes it away
prepares a machine of its identity or clears the console of one. The console of a registered
machine that has been prepared stands for as long as the machine is registered, whatever the
order of the steps, exactly if no reaper trails that has given the identity back before. And if
none trails, the console stands until its own reaper clears it or a machine of the identity that
is registered later is prepared. -/
theorem console_stands_unless_trailed {setup : Setup} {tree : Tree}
    (macs : setup.macs = MacSource.ofOctets) (reached : Reachable (initial setup tree) daemon)
    (plain : daemon.tree.IsPlainlyNamed) :
    (∀ event next (serial : Nat) (boot : Boot), daemon.step? event = some next →
      event.isCalm = true → daemon.boots[serial]? = some boot → ¬ boot.IsDormant →
      daemon.showsConsole boot.vm.uuid = true → next.showsConsole boot.vm.uuid = false →
      ∃ (other : Nat) (another : Boot), daemon.boots[other]? = some another ∧
        another.vm.uuid = boot.vm.uuid ∧
        (event = .prepare other ∨ event = .clearConsole other)) ∧
    (∀ (serial : Nat) (boot : Boot), daemon.boots[serial]? = some boot → daemon.Registers serial →
      boot.IsPrepared → daemon.showsConsole boot.vm.uuid = true →
      ((∀ events later, daemon.run? events = some later →
          (∀ event ∈ events, event.isCalm = true) → later.Registers serial →
          later.showsConsole boot.vm.uuid = true) ↔ ¬ daemon.Trails boot.vm.uuid) ∧
      (¬ daemon.Trails boot.vm.uuid → ∀ events later, daemon.run? events = some later →
        (∀ event ∈ events, event.isCalm = true) → later.showsConsole boot.vm.uuid = false →
        .clearConsole serial ∈ events ∨
          ∃ (other : Nat) (another : Boot), later.boots[other]? = some another ∧
            another.vm.uuid = boot.vm.uuid ∧ ¬ daemon.Registers other ∧
            .prepare other ∈ events)) := by
  refine ⟨?_, fun serial boot found registers prepared shows =>
    ⟨⟨fun stands trails => ?_, fun clear events later ran calm =>
      shows_of_registers macs reached plain found registers prepared shows clear ran calm⟩,
    fun clear events later ran calm =>
      cleared_or_prepared macs reached plain found registers prepared shows clear ran calm⟩⟩
  · intro event next serial boot stepped calm found awake shows gone
    have rule := rule_of_step? stepped
    have named := isNamed_of_reachable macs reached
    obtain ⟨identity, uuid⟩ := named serial boot found awake
    rw [uuid] at shows gone ⊢
    rcases (handles_of_rule named plain rule calm).shows_or_clears plain (setup_of_rule rule)
        shows with still | ⟨other, another, present, same, asked⟩
    · rw [still] at gone
      cases gone
    · exact ⟨other, another, present, same, asked.imp And.left And.left⟩
  · obtain ⟨_, again, holds⟩ := ((owned_of_reachable reached).registers_iff serial).mp registers
    obtain rfl := Option.some.inj (found.symm.trans again)
    obtain ⟨identity, uuid⟩ := isNamed_of_reachable macs reached serial boot found
      (Boot.not_isDormant_of_busy holds)
    rw [uuid] at stands trails shows
    obtain ⟨events, later, ran, calm, same, gone⟩ := trails.exists_gone plain shows
    have still : later.Registers serial := by
      unfold Registers
      rw [same]
      exact registers
    rw [stands events later ran calm still] at gone
    cases gone

/-! ### Two machines of one identity -/

/-- The identity that two machines have, one after the other. -/
def reused : String := "6f1c2a44-0b7e-4c55-9d1a-3c2b1a0f9e88"

/-- Two requests for one identity and one for another arrive. The first of them becomes a
machine with a console, and its process ends. -/
def firstEnded : List Event :=
  let asked (name uuid : String) : Event :=
    .submit { Vm.draft "alpha" "1.2.3" with uuid := uuid, name := name }
  [asked "first" reused, asked "second" reused, asked "third" "00000001-0000-4000-8000-00009e3779b1",
    .reserve 0 (drawing 1) 7, .prepare 0, .announce 0, .launch 0 (.ok ⟨100, true⟩),
    .handOver 0 0, .exit 0, .deregister 0, .settleExit 0]

/-- The second request becomes a machine with a console. -/
def secondLaunched : List Event :=
  [.reserve 1 (drawing 2) 8, .prepare 1, .announce 1, .launch 1 (.ok ⟨101, true⟩), .handOver 1 0]

/-- The third request becomes a machine with a console, and its reaper clears it. -/
def thirdCleared : List Event :=
  [.finish 0, .reserve 2 (drawing 3) 9, .prepare 2, .announce 2, .launch 2 (.ok ⟨102, true⟩),
    .handOver 2 0, .exit 2, .deregister 2, .settleExit 2, .clearConsole 2]

theorem shows_thirdCleared :
    (stocked.run? (firstEnded ++ .clearConsole 0 :: secondLaunched)).any (fun daemon =>
      daemon.shown == [(1, "second", "", 101, .awaitingAddress)] &&
      daemon.boots.all (fun boot => !boot.reaper.trails) && daemon.showsConsole reused &&
      daemon.boots[1]?.any (fun boot =>
        match boot.request with
        | .waiting => boot.vm.uuid == reused
        | _ => false) &&
      (daemon.run? thirdCleared).any fun later =>
        later.shown == [(1, "second", "", 101, .awaitingAddress)]) = true := by
  decide +kernel

theorem shows_overtaken :
    (stocked.run? (firstEnded ++ secondLaunched)).any (fun daemon =>
      daemon.shown == [(1, "second", "", 101, .awaitingAddress)] &&
      daemon.showsConsole reused &&
      (daemon.step? (.clearConsole 0)).any fun next =>
        next.shown == [(1, "second", "", 101, .awaitingAddress)] &&
        !next.showsConsole reused) = true := by
  decide +kernel

theorem console_stands_unless_trailed_of_thirdCleared :
    ∃ daemon later, stocked.run? (firstEnded ++ .clearConsole 0 :: secondLaunched) = some daemon ∧
      daemon.showsConsole reused = true ∧ daemon.run? thirdCleared = some later ∧
      later.shown = [(1, "second", "", 101, .awaitingAddress)] ∧
      later.showsConsole reused = true := by
  obtain ⟨daemon, ran, holds⟩ := (Option.any_eq_true _ _).mp shows_thirdCleared
  simp only [Bool.and_eq_true, beq_iff_eq] at holds
  obtain ⟨⟨⟨⟨shown, through⟩, shows⟩, second⟩, holds⟩ := holds
  obtain ⟨later, onward, still⟩ := (Option.any_eq_true _ _).mp holds
  have still := eq_of_beq still
  obtain ⟨boot, found, what⟩ := (Option.any_eq_true _ _).mp second
  split at what
  · rename_i waits
    have uuid : boot.vm.uuid = reused := eq_of_beq what
    have prepared : boot.IsPrepared := by
      unfold Boot.IsPrepared
      rw [waits]
      exact ⟨nofun, nofun⟩
    have clear : ¬ daemon.Trails boot.vm.uuid := by
      rintro ⟨serial, other, present, -, trails⟩
      have past := List.all_eq_true.mp through other (List.mem_of_getElem? present)
      rw [trails] at past
      cases past
    have member : ∀ {last : Daemon}, last.shown = [(1, "second", "", 101, .awaitingAddress)] →
        last.Registers 1 :=
      fun shown => registers_of_shown (by
        rw [shown]
        exact List.mem_singleton_self _)
    have macs : stocked.setup.macs = MacSource.ofOctets := rfl
    have origin : Reachable (initial stocked.setup stocked.tree) stocked := .start
    have plain : daemon.tree.IsPlainlyNamed := isPlainlyNamed_of_run macs origin
      (Tree.isPlainlyNamed_of_linkless (by simp [stocked, initial]) rfl) ran (by decide)
    have reached : Reachable (initial stocked.setup stocked.tree) daemon :=
      reachable_iff.mpr ⟨_, ran⟩
    obtain ⟨-, stands⟩ := console_stands_unless_trailed macs reached plain
    obtain ⟨stands, -⟩ := stands 1 boot found (member shown) prepared (uuid ▸ shows)
    refine ⟨daemon, later, ran, shows, onward, still, ?_⟩
    rw [← uuid]
    exact stands.mpr clear thirdCleared later onward (by decide) (member still)
  · cases what

/-- A reaper that was overtaken clears the console of the later machine, which is registered
and stays so. -/
theorem overtaken_reaper_clears_later_console :
    ∃ daemon next, stocked.run? (firstEnded ++ secondLaunched) = some daemon ∧
      daemon.shown = [(1, "second", "", 101, .awaitingAddress)] ∧
      daemon.showsConsole reused = true ∧
      daemon.step? (.clearConsole 0) = some next ∧
      next.shown = [(1, "second", "", 101, .awaitingAddress)] ∧
      next.showsConsole reused = false := by
  obtain ⟨daemon, ran, holds⟩ := (Option.any_eq_true _ _).mp shows_overtaken
  simp only [Bool.and_eq_true, beq_iff_eq] at holds
  obtain ⟨⟨first, shows⟩, holds⟩ := holds
  obtain ⟨next, stepped, holds⟩ := (Option.any_eq_true _ _).mp holds
  simp only [Bool.and_eq_true, beq_iff_eq, Bool.not_eq_true'] at holds
  exact ⟨daemon, next, ran, first, shows, stepped, holds.1, holds.2⟩

end Daemon

end VmFleet
