/-
This file says how far two boots under one identity are kept apart. A race looks
its machine up by identity only. As long as its own entry is registered that finds
its own entry, so it touches no other one and keeps a copy of its own record. But an
address is heard before the lock is taken, and in between the process may end, its
entry may be taken out, and a later request may enter the identity again. Then the
race finds the later entry: it writes its address and its process there, and its
request is answered with the record of the other boot.
-/

import VmFleet.Proofs.Supervision.Advance
import VmFleet.Proofs.Supervision.Identity
import VmFleet.Proofs.Supervision.Motion

namespace VmFleet

/-- The request whose race takes a step. -/
def Event.raced? : Event → Option Nat
  | .hear serial _ | .fallSilent serial | .strike serial | .notice serial | .recordAddress serial
  | .settleAddress serial | .settleDeadline serial | .markFailed serial => some serial
  | _ => none

namespace Daemon

variable {daemon next : Daemon} {event : Event} {serial : Nat} {boot : Boot}

/-! ### Entries that a race leaves alone -/

/-- A race leaves the entries of all identities but its own as they are. -/
theorem find?_of_race (rule : Rule daemon event next) (raced : event.raced? = some serial)
    (found : daemon.boots[serial]? = some boot) {uuid : String} (elsewhere : boot.vm.uuid ≠ uuid) :
    next.shared.registry.active.find? uuid = daemon.shared.registry.active.find? uuid := by
  cases rule with
  | recordAddress present phase =>
    obtain rfl := Option.some.inj raced
    obtain rfl := Option.some.inj (found.symm.trans present)
    simp only [recordAddress, withRegistry, put, Registry.find?_setState, Registry.find?_update,
      if_neg elsewhere]
  | markFailed present phase =>
    obtain rfl := Option.some.inj raced
    obtain rfl := Option.some.inj (found.symm.trans present)
    simp only [markFailed, withRegistry, put, Registry.active_cancel, Registry.find?_setState,
      if_neg elsewhere]
  | hear | fallSilent | strike | notice | settleAddress | settleDeadline => rfl
  | _ => cases raced

/-- While its own entry is registered, a race leaves the entries of all other requests alone. -/
theorem Owned.row_of_race (owned : daemon.Owned) (rule : Rule daemon event next)
    (raced : event.raced? = some serial) (found : daemon.boots[serial]? = some boot)
    {uuid : String} {entry : RegistryEntry}
    (member : (uuid, entry) ∈ daemon.shared.registry.active.rows)
    (apart : uuid ≠ boot.vm.uuid ∨ daemon.Registers serial ∧ entry.halt ≠ serial) :
    (uuid, entry) ∈ next.shared.registry.active.rows := by
  have unambiguous := (Registry.unambiguous_deeds_iff _).mp owned.unambiguous
  have stands := unambiguous.find?_of_mem member
  have elsewhere : boot.vm.uuid ≠ uuid := by
    rcases apart with different | ⟨registers, foreign⟩
    · exact Ne.symm different
    · rintro rfl
      obtain ⟨_, present, holds⟩ := (owned.registers_iff serial).mp registers
      obtain rfl := Option.some.inj (found.symm.trans present)
      obtain ⟨vm, -, own⟩ := owned.entry found holds
      rw [stands] at own
      exact foreign (congrArg RegistryEntry.halt (Option.some.inj own))
  exact Keyed.mem_rows_of_find? ((find?_of_race rule raced found elsewhere).trans stands)

/-! ### Records that a race keeps -/

/-- While its own entry is registered, the copy that the race keeps is of its own record. -/
theorem Owned.copy_of_record (owned : daemon.Owned)
    (found : daemon.boots[serial]? = some boot) (registers : daemon.Registers serial)
    {address : String} {vm : Vm}
    (copied : (daemon.recordAddress serial boot address).shared.registry.find? boot.vm.uuid =
      some vm) : vm.lasting = boot.vm ∧ vm.pid = boot.pid := by
  obtain ⟨_, present, holds⟩ := (owned.registers_iff serial).mp registers
  obtain rfl := Option.some.inj (found.symm.trans present)
  obtain ⟨own, lasting, stands⟩ := owned.entry found holds
  unfold Registry.find? at copied
  simp only [recordAddress, withRegistry, put, Registry.find?_setState, Registry.find?_update,
    if_true, stands, Option.map_some] at copied
  obtain rfl := Option.some.inj copied
  exact ⟨(Vm.lasting_moveTo _ _).trans lasting, Vm.pid_moveTo _ _⟩

end Daemon

/-- The record is that of the boot: what was reserved for it, with its process. -/
def Vm.IsOf (vm : Vm) (boot : Boot) : Prop :=
  vm.lasting = boot.vm ∧ vm.pid = boot.pid

/-- Whatever record the boot has got hold of is its own. -/
structure Boot.KeepsOwn (boot : Boot) : Prop where
  alone : boot.request.isAlone = true →
    boot.race = .absent ∧ boot.reaper = .absent ∧ boot.signal = .pending
  copied : ∀ vm, boot.race = .recorded (some vm) → vm.IsOf boot
  settled : ∀ vm, boot.signal = .ready vm → vm.IsOf boot
  answered : ∀ vm, boot.request = .answered (.ok vm) → vm.IsOf boot

theorem Boot.keepsOwn_ofDraft (draft : Vm) : (ofDraft draft).KeepsOwn :=
  ⟨fun _ => ⟨rfl, rfl, rfl⟩, nofun, nofun, nofun⟩

/-- A boot that works alone has no record yet, whatever its own record becomes. -/
theorem Boot.KeepsOwn.prepared {boot : Boot} (own : boot.KeepsOwn)
    (before : boot.request.isAlone = true) (vm : Vm) (pid : Int) {phase : RequestPhase}
    (unanswered : ∀ vm, phase ≠ .answered (.ok vm)) :
    { boot with vm, pid, request := phase }.KeepsOwn := by
  obtain ⟨race, reaper, signal⟩ := own.alone before
  refine ⟨fun _ => ⟨race, reaper, signal⟩, fun vm copied => ?_, fun vm settled => ?_,
    fun vm answered => absurd answered (unanswered vm)⟩
  · rw [show boot.race = _ from copied] at race
    cases race
  · rw [show boot.signal = _ from settled] at signal
    cases signal

namespace Daemon

variable {daemon next : Daemon} {event : Event} {serial : Nat} {boot : Boot}

/-- A boot goes on with its own records, if its race only records while its entry is there. -/
theorem keepsOwn_of_advance {after : Boot} (owned : daemon.Owned)
    (stepped : daemon.step? event = some next) (found : daemon.boots[serial]? = some boot)
    (advance : Advance daemon event next serial boot after)
    (timely : event = .recordAddress serial → daemon.Registers serial)
    (own : boot.KeepsOwn) : after.KeepsOwn := by
  cases advance with
  | admission draws time vm asked phase outcome =>
    exact own.prepared (by rw [phase]; rfl) vm boot.pid nofun
  | refusal draws time error asked phase outcome =>
    exact own.prepared (by rw [phase]; rfl) boot.vm boot.pid nofun
  | preparation phase pid before after blameless =>
    refine own.prepared before boot.vm pid ?_
    rintro vm rfl
    cases after
  | withdrawal error phase => exact own.prepared (by rw [phase]; rfl) boot.vm boot.pid nofun
  | handOver phase => exact ⟨nofun, nofun, own.settled, nofun⟩
  | answer phase settled =>
    refine ⟨nofun, own.copied, own.settled, fun vm answered => own.settled vm ?_⟩
    injection answered with answered
    exact Boot.ready_of_answerOf answered
  | race phase present bare =>
    exact ⟨fun alone => absurd (own.alone alone).1 present,
      fun vm copied => absurd copied (bare _), own.settled, own.answered⟩
  | record address asked phase =>
    refine ⟨fun alone => ?_, fun vm copied => ?_, own.settled, own.answered⟩
    · have absent := (own.alone alone).1
      rw [phase] at absent
      cases absent
    · subst asked
      cases rule_of_step? stepped with
      | recordAddress present heard =>
        obtain rfl := Option.some.inj (found.symm.trans present)
        injection copied with copied
        exact owned.copy_of_record found (timely rfl) copied
  | settlement status race reaper present honest kept =>
    refine ⟨fun alone => ?_, fun vm copied => own.copied vm (kept _ copied), fun vm ready => ?_,
      own.answered⟩
    · obtain ⟨absent, missing, -⟩ := own.alone alone
      exact (present.elim (· absent) (· missing)).elim
    · rcases BootSignal.ready_of_settle ready with before | now
      · exact own.settled vm before
      · exact own.copied vm (honest vm now)
  | reaper phase present =>
    exact ⟨fun alone => absurd (own.alone alone).2.1 present, own.copied, own.settled, own.answered⟩

/-- Whenever the race of a request records an address in a run, the entry of the request is
registered. -/
def RecordsInTime (serial : Nat) : Daemon → List Event → Prop
  | _, [] => True
  | daemon, event :: events =>
    (event = .recordAddress serial → daemon.Registers serial) ∧
      ∀ next, daemon.step? event = some next → RecordsInTime serial next events

/-- A race that records nothing records nothing late. -/
theorem recordsInTime_of_silent {events : List Event} (start : Daemon)
    (silent : ∀ event ∈ events, event ≠ .recordAddress serial) :
    RecordsInTime serial start events := by
  induction events generalizing start with
  | nil => trivial
  | cons event events inductionHypothesis =>
    exact ⟨fun asked => absurd asked (silent event List.mem_cons_self), fun next _ =>
      inductionHypothesis next fun later member => silent later (List.mem_cons_of_mem _ member)⟩

theorem recordsInTime_append {events others : List Event} {start : Daemon}
    (first : RecordsInTime serial start events)
    (rest : ∀ middle, start.run? events = some middle → RecordsInTime serial middle others) :
    RecordsInTime serial start (events ++ others) := by
  induction events generalizing start with
  | nil => exact rest start rfl
  | cons event events inductionHypothesis =>
    refine ⟨first.1, fun next stepped => inductionHypothesis (first.2 next stepped) ?_⟩
    exact fun middle ran => rest middle (run?_cons_eq_some.mpr ⟨next, stepped, ran⟩)

/-- A request whose race records in time gets hold of no record but its own. -/
theorem keepsOwn_of_run {start : Daemon} {events : List Event} (owned : start.Owned)
    (own : ∀ boot, start.boots[serial]? = some boot → boot.KeepsOwn)
    (timely : RecordsInTime serial start events) (ran : start.run? events = some daemon) :
    ∀ boot, daemon.boots[serial]? = some boot → boot.KeepsOwn := by
  induction events generalizing start with
  | nil =>
    obtain rfl := Option.some.inj ran
    exact own
  | cons event events inductionHypothesis =>
    obtain ⟨next, stepped, rest⟩ := run?_cons_eq_some.mp ran
    refine inductionHypothesis (owned.step stepped) (fun after present => ?_)
      (timely.2 next stepped) rest
    rcases (advances_of_rule (rule_of_step? stepped)).origin present with
      ⟨draft, rfl⟩ | ⟨boot, found, rfl | advance⟩
    · exact Boot.keepsOwn_ofDraft draft
    · exact own after found
    · exact keepsOwn_of_advance owned stepped found advance timely.1 (own boot found)

/-! ### The result -/

/-- Two boots under one identity are apart as long as the race of the earlier one works on its
own entry. A step of a race leaves every entry under another identity as it is, and while its
own entry is registered also every entry of another request; and a request whose race always
records while its entry is registered is only ever answered with its own record. -/
theorem boots_apart_while_registered {setup : Setup} {tree : Tree} {daemon : Daemon}
    {events : List Event} (ran : (initial setup tree).run? events = some daemon) :
    (∀ event next serial boot, daemon.step? event = some next → event.raced? = some serial →
      daemon.boots[serial]? = some boot →
      ∀ uuid entry, (uuid, entry) ∈ daemon.shared.registry.active.rows →
        uuid ≠ boot.vm.uuid ∨ daemon.Registers serial ∧ entry.halt ≠ serial →
        (uuid, entry) ∈ next.shared.registry.active.rows) ∧
    (∀ serial boot vm, RecordsInTime serial (initial setup tree) events →
      daemon.boots[serial]? = some boot → boot.request = .answered (.ok vm) →
      vm.lasting = boot.vm ∧ vm.pid = boot.pid) := by
  have start := owned_initial setup tree
  have owned := start.run ran
  refine ⟨fun event next serial boot stepped raced found uuid entry member apart =>
    owned.row_of_race (rule_of_step? stepped) raced found member apart, ?_⟩
  intro serial boot vm timely found answered
  exact (keepsOwn_of_run start (fun _ found => nomatch found) timely ran boot found).answered
    vm answered

/-! ### Two boots under one identity -/

/-- Two requests for one identity arrive, and the runner of the first one reports an address. -/
def firstHeard : List Event :=
  let named (name : String) : Event :=
    .submit { Vm.draft "alpha" "1.2.3" with
      uuid := "6f1c2a44-0b7e-4c55-9d1a-3c2b1a0f9e88", name := name }
  [named "first", named "second", .reserve 0 (drawing 1) 7, .prepare 0, .announce 0,
    .launch 0 (.ok ⟨100, false⟩), .handOver 0 0, .hear 0 "10.0.0.1"]

/-- The address is recorded, and the first request is answered. -/
def firstRecorded : List Event :=
  [.recordAddress 0, .settleAddress 0, .answer 0]

/-- The process of the first machine ends, and the second machine is started. -/
def secondStarted : List Event :=
  [.exit 0, .deregister 0, .reserve 1 (drawing 2) 8, .prepare 1, .announce 1,
    .launch 1 (.ok ⟨101, false⟩), .handOver 1 0]

/-- The entries with the names of their machines and with what a race writes. -/
def shown (daemon : Daemon) : List (HaltToken × String × String × Int × VmState) :=
  daemon.shared.registry.active.values.map fun entry =>
    (entry.halt, entry.vm.name, entry.vm.publicIp, entry.vm.pid, entry.vm.state)

theorem shown_firstHeard :
    (stocked.run? firstHeard).any (fun daemon =>
      daemon.shown == [(0, "first", "", 100, .awaitingAddress)] &&
      (daemon.run? (firstRecorded ++ secondStarted)).any fun later =>
        later.shown == [(1, "second", "", 101, .awaitingAddress)] &&
        later.boots[0]?.any fun boot =>
          match boot.request with
          | .answered (.ok vm) => vm.publicIp == "10.0.0.1"
          | _ => false) = true := by
  decide +kernel

theorem shown_overtaken :
    (stocked.run? (firstHeard ++ secondStarted)).any (fun daemon =>
      daemon.shown == [(1, "second", "", 101, .awaitingAddress)] &&
      (daemon.run? firstRecorded).any fun later =>
        later.shown == [(1, "second", "10.0.0.1", 100, .running)] &&
        later.boots[0]?.any fun boot =>
          match boot.request with
          | .answered (.ok vm) => vm.lasting != boot.vm
          | _ => false) = true := by
  decide +kernel

/-- A request that was answered with a record. -/
theorem exists_of_answered {look : Boot → Vm → Bool} {boot? : Option Boot}
    (shows : (boot?.any fun boot =>
      match boot.request with
      | .answered (.ok vm) => look boot vm
      | _ => false) = true) :
    ∃ boot vm, boot? = some boot ∧ boot.request = .answered (.ok vm) ∧ look boot vm = true := by
  obtain ⟨boot, rfl, here⟩ := (Option.any_eq_true _ _).mp shows
  split at here
  · rename_i vm answered
    exact ⟨boot, vm, rfl, answered, here⟩
  · cases here

theorem run?_append {start later : Daemon} {events others : List Event}
    (ran : start.run? events = some daemon) (onward : daemon.run? others = some later) :
    start.run? (events ++ others) = some later := by
  unfold run? at ran onward ⊢
  rw [List.foldlM_append, ran]
  exact onward

/-- Who is shown is registered. -/
theorem registers_of_shown {rest : String × String × Int × VmState}
    (member : (serial, rest) ∈ daemon.shown) : daemon.Registers serial := by
  obtain ⟨entry, stands, same⟩ := List.mem_map.mp member
  obtain ⟨⟨uuid, ⟨vm, _⟩⟩, row, rfl⟩ := List.mem_map.mp stands
  obtain ⟨rfl, -⟩ := Prod.mk.inj same
  exact ⟨uuid, vm, row⟩

theorem boots_apart_while_registered_of_stocked :
    ∃ later boot vm,
      stocked.run? (firstHeard ++ (firstRecorded ++ secondStarted)) = some later ∧
      later.shown = [(1, "second", "", 101, .awaitingAddress)] ∧
      later.boots[0]? = some boot ∧ boot.request = .answered (.ok vm) ∧
      vm.publicIp = "10.0.0.1" ∧ vm.lasting = boot.vm ∧ vm.pid = boot.pid := by
  obtain ⟨daemon, ran, goes⟩ := (Option.any_eq_true _ _).mp shown_firstHeard
  rw [Bool.and_eq_true, beq_iff_eq] at goes
  obtain ⟨first, goes⟩ := goes
  obtain ⟨later, onward, second⟩ := (Option.any_eq_true _ _).mp goes
  rw [Bool.and_eq_true, beq_iff_eq] at second
  obtain ⟨second, answer⟩ := second
  obtain ⟨boot, vm, found, answered, address⟩ := exists_of_answered answer
  have registers : daemon.Registers 0 := registers_of_shown (by
    rw [first]
    exact List.mem_singleton_self _)
  have whole := run?_append ran onward
  have timely : RecordsInTime 0 stocked (firstHeard ++ (firstRecorded ++ secondStarted)) := by
    refine recordsInTime_append (recordsInTime_of_silent _ (by simp [firstHeard])) ?_
    intro middle before
    obtain rfl := Option.some.inj (ran.symm.trans before)
    exact ⟨fun _ => registers, fun next _ =>
      recordsInTime_of_silent next (by simp [secondStarted])⟩
  obtain ⟨lasting, pid⟩ := (boots_apart_while_registered whole).2 0 boot vm timely found answered
  exact ⟨later, boot, vm, whole, second, found, answered, eq_of_beq address, lasting, pid⟩

/-- A race that was overtaken writes its address and its process into the entry of the later
request, and its own request is answered with the record of that one. -/
theorem overtaken_race_takes_later_entry :
    ∃ daemon later boot vm, stocked.run? (firstHeard ++ secondStarted) = some daemon ∧
      daemon.shown = [(1, "second", "", 101, .awaitingAddress)] ∧
      daemon.run? firstRecorded = some later ∧
      later.shown = [(1, "second", "10.0.0.1", 100, .running)] ∧
      later.boots[0]? = some boot ∧ boot.request = .answered (.ok vm) ∧ vm.lasting ≠ boot.vm := by
  obtain ⟨daemon, ran, goes⟩ := (Option.any_eq_true _ _).mp shown_overtaken
  rw [Bool.and_eq_true, beq_iff_eq] at goes
  obtain ⟨first, goes⟩ := goes
  obtain ⟨later, onward, second⟩ := (Option.any_eq_true _ _).mp goes
  rw [Bool.and_eq_true, beq_iff_eq] at second
  obtain ⟨second, answer⟩ := second
  obtain ⟨boot, vm, found, answered, foreign⟩ := exists_of_answered answer
  exact ⟨daemon, later, boot, vm, ran, first, onward, second, found, answered,
    bne_iff_ne.mp foreign⟩

end Daemon

end VmFleet
