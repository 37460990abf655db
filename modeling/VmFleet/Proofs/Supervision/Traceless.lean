/-
This file proves that a run whose runner was never started leaves no trace. Where a
machine is prepared, the planner and the files may do whatever they like; everything
else a daemon does is as it was. A request that ends with an error no boot can end
with has neither a race nor a reaper at any moment, so each of its steps leaves its
surroundings as they are, and when it is answered its entry is gone. What is different
after it is what the others did, each to its own unless a race among them was overtaken.
-/

import VmFleet.Proofs.Supervision.Ceiling
import VmFleet.Proofs.Supervision.Surroundings

namespace VmFleet

/-! ### A daemon whose planner may do anything -/

/-- What happens to a daemon: an event, or the end of a preparation with whatever a planner and
the files make of it. -/
inductive Incident
  | event (event : Event)
  | planning (serial : Nat) (tree : Tree) (outcome : Except FleetError BootPlan)

/-- The event that an incident is. -/
def Incident.kind : Incident → Event
  | .event happening => happening
  | .planning serial _ _ => .prepare serial

/-- The request that takes a step. -/
def Incident.serial? (incident : Incident) : Option Nat :=
  incident.kind.serial?

namespace Daemon

/-- The preparation of a machine ends: some files are left, and there is a plan or an error. -/
def endPreparation (daemon : Daemon) (serial : Nat) (boot : Boot) (tree : Tree)
    (outcome : Except FleetError BootPlan) : Daemon :=
  { daemon with tree }.put serial
    { boot with
      request := match outcome with
        | .ok plan => .planned plan
        | .error error => .undoing error }

/-- Planning against the image store is one of the ways a preparation can end. -/
theorem prepare_eq_endPreparation (daemon : Daemon) (serial : Nat) (boot : Boot) :
    daemon.prepare serial boot =
      let places := daemon.placesOf boot
      let (outcome, tree) := places.prepare.run daemon.tree
      daemon.endPreparation serial boot tree
        (outcome.bind fun () =>
          BootPlan.make daemon.setup.store daemon.setup.runner boot.vm places tree) := rfl

/-- The daemon after an incident, or nothing where it cannot happen. -/
def advance? (daemon : Daemon) : Incident → Option Daemon
  | .event event => daemon.step? event
  | .planning serial tree outcome => daemon.onBoot serial fun boot =>
    match boot.request with
    | .reserved => some (daemon.endPreparation serial boot tree outcome)
    | _ => none

/-- The daemon after a list of incidents, or nothing where one cannot happen. -/
def pass? (daemon : Daemon) (incidents : List Incident) : Option Daemon :=
  incidents.foldlM advance? daemon

/-- Every run of the daemon is one of these. -/
theorem pass?_map_event (start : Daemon) (events : List Event) :
    start.pass? (events.map .event) = start.run? events := by
  unfold pass? run?
  rw [List.foldlM_map]
  rfl

theorem pass?_cons_eq_some {daemon later : Daemon} {incident : Incident}
    {incidents : List Incident} :
    daemon.pass? (incident :: incidents) = some later ↔
      ∃ next, daemon.advance? incident = some next ∧ next.pass? incidents = some later := by
  unfold pass?
  rw [List.foldlM_cons]
  exact Option.bind_eq_some_iff

/-- What every incident keeps, every run keeps. -/
theorem pass?_keeps (Holds : Daemon → Prop)
    (keeps : ∀ {daemon next incident}, Holds daemon → advance? daemon incident = some next →
      Holds next) {start last : Daemon} {incidents : List Incident} (first : Holds start)
    (passed : start.pass? incidents = some last) : Holds last := by
  induction incidents generalizing start with
  | nil =>
    obtain rfl := Option.some.inj passed
    exact first
  | cons incident incidents inductionHypothesis =>
    obtain ⟨next, advanced, rest⟩ := pass?_cons_eq_some.mp passed
    exact inductionHypothesis (keeps first advanced) rest

variable {daemon next start last : Daemon} {incident : Incident} {incidents : List Incident}
  {event : Event} {serial : Nat} {boot after : Boot}

theorem planning_eq_some {tree : Tree} {outcome : Except FleetError BootPlan}
    (advanced : daemon.advance? (.planning serial tree outcome) = some next) :
    ∃ boot, daemon.boots[serial]? = some boot ∧ boot.request = .reserved ∧
      next = daemon.endPreparation serial boot tree outcome := by
  obtain ⟨boot, found, moved⟩ := onBoot_eq_some advanced
  split at moved
  · rename_i phase
    exact ⟨boot, found, phase, (Option.some.inj moved).symm⟩
  · cases moved

/-- However a preparation ends, the request goes on and answers for its entry as before. -/
theorem turn_endPreparation (found : daemon.boots[serial]? = some boot)
    (phase : boot.request = .reserved) (tree : Tree) (outcome : Except FleetError BootPlan) :
    Turn daemon (.prepare serial) (daemon.endPreparation serial boot tree outcome) := by
  refine .course serial boot _ rfl found
    (boot.goesOn_alone _ boot.pid (by rw [phase]; rfl) ?_ ?_) rfl rfl
  · rw [phase]
    split <;> rfl
  · split <;> exact nofun

/-- Deeds and requests agree whatever the planner does. -/
theorem Owned.advance (owned : daemon.Owned) (advanced : daemon.advance? incident = some next) :
    next.Owned := by
  cases incident with
  | event event => exact owned.step advanced
  | planning serial tree outcome =>
    obtain ⟨boot, found, phase, rfl⟩ := planning_eq_some advanced
    exact owned.turn (turn_endPreparation found phase tree outcome)

theorem Owned.pass (owned : start.Owned) (passed : start.pass? incidents = some last) :
    last.Owned :=
  pass?_keeps Owned Owned.advance owned passed

/-- A step leaves alone what it is not about, unless it is that of a race that was overtaken. -/
theorem Owned.actsOnOwn_of_advance? (owned : daemon.Owned)
    (advanced : daemon.advance? incident = some next)
    (timely : ¬ daemon.Overtaken incident.kind) : ActsOnOwn daemon incident.kind next := by
  cases incident with
  | event event => exact owned.actsOnOwn_of_rule (rule_of_step? advanced) timely
  | planning serial tree outcome =>
    obtain ⟨boot, found, phase, rfl⟩ := planning_eq_some advanced
    exact actsOnOwn_of_around rfl (around_put _ _ _)

end Daemon

/-! ### Requests for which no runner was started -/

/-- The error is one that a boot can end with. -/
def FleetError.endsBoot : FleetError → Bool
  | .bootTimeout _ _ | .terminatedEarly _ => true
  | _ => false

/-- The request waits for a boot, or was answered as a boot can end. -/
def RequestPhase.isBooted : RequestPhase → Bool
  | .waiting | .answered (.ok _) => true
  | .answered (.error error) => error.endsBoot
  | _ => false

theorem RequestPhase.isBooted_of_isAlone {phase : RequestPhase} (alone : phase.isAlone = true) :
    phase.isBooted = false := by
  cases phase <;> first | rfl | cases alone

/-- Every outcome that is settled is one that a boot can end with. -/
theorem Boot.isBooted_answerOf (name : String) (bootTimeout : UInt64) (signal : BootSignal) :
    (RequestPhase.answered (Boot.answerOf name bootTimeout signal)).isBooted = true := by
  cases signal <;> rfl

/-- Nobody works for the request but the request itself. -/
def Boot.IsUnaided (boot : Boot) : Prop :=
  boot.race = .absent ∧ boot.reaper = .absent

/-- What was booted stays so, and only a boot gets a race and a reaper. -/
structure Boot.Continues (boot after : Boot) : Prop where
  booted : boot.request.isBooted = true → after.request.isBooted = true
  unaided : boot.IsUnaided → after.request.isBooted = true ∨ after.IsUnaided

namespace Boot

theorem continues_self (boot : Boot) : boot.Continues boot :=
  ⟨id, .inr⟩

/-- Before a boot begins, the request moves on by itself. -/
theorem continues_alone (boot : Boot) (vm : Vm) (pid : Int) (phase : RequestPhase)
    (alone : boot.request.isAlone = true) :
    boot.Continues { boot with vm, pid, request := phase } where
  booted already := by
    rw [RequestPhase.isBooted_of_isAlone alone] at already
    cases already
  unaided := .inr

/-- Whoever works for a request leaves its phase as it is. -/
theorem continues_aided (boot : Boot) (race : RacePhase) (reaper : ReaperPhase)
    (signal : BootSignal) (aided : boot.race ≠ .absent ∨ boot.reaper ≠ .absent) :
    boot.Continues { boot with race, reaper, signal } where
  booted := id
  unaided unaided := (aided.elim (· unaided.1) (· unaided.2)).elim

end Boot

namespace Daemon

variable {daemon next start last : Daemon} {incident : Incident} {incidents : List Incident}
  {event : Event} {serial : Nat} {boot after : Boot}

theorem continues_of_advance (advance : Advance daemon event next serial boot after) :
    boot.Continues after := by
  cases advance with
  | admission draws time vm asked phase outcome =>
    exact boot.continues_alone vm boot.pid .reserved (by rw [phase]; rfl)
  | refusal draws time error asked phase outcome =>
    exact boot.continues_alone boot.vm boot.pid _ (by rw [phase]; rfl)
  | preparation phase pid before after blameless =>
    exact boot.continues_alone boot.vm pid phase before
  | withdrawal error phase =>
    exact boot.continues_alone boot.vm boot.pid _ (by rw [phase]; rfl)
  | handOver phase => exact ⟨fun _ => rfl, fun _ => .inl rfl⟩
  | answer phase settled =>
    exact ⟨fun _ => Boot.isBooted_answerOf _ _ _, fun _ => .inl (Boot.isBooted_answerOf _ _ _)⟩
  | race phase present bare =>
    exact boot.continues_aided phase boot.reaper boot.signal (.inl present)
  | record address asked phase =>
    exact boot.continues_aided _ boot.reaper boot.signal (.inl (by rw [phase]; exact nofun))
  | settlement status race reaper present honest kept =>
    exact boot.continues_aided race reaper _ present
  | reaper phase present =>
    exact boot.continues_aided boot.race phase boot.signal (.inr present)

/-- Every request continues in every step, whoever takes it. -/
theorem exists_continues (advanced : daemon.advance? incident = some next)
    (found : daemon.boots[serial]? = some boot) :
    ∃ after, next.boots[serial]? = some after ∧ boot.Continues after := by
  have of_set : ∀ {other : Nat} {going onward : Boot}, daemon.boots[other]? = some going →
      going.Continues onward → next.boots = daemon.boots.set other onward →
      ∃ after, next.boots[serial]? = some after ∧ boot.Continues after := by
    intro other going onward there continues boots
    rw [boots, boots_set there]
    by_cases same : other = serial
    · subst same
      obtain rfl := Option.some.inj (found.symm.trans there)
      exact ⟨onward, if_pos rfl, continues⟩
    · exact ⟨boot, by rw [if_neg same, found], boot.continues_self⟩
  cases incident with
  | event event =>
    cases advances_of_rule (rule_of_step? advanced) with
    | arrival draft boots =>
      refine ⟨boot, ?_, boot.continues_self⟩
      rw [boots, List.getElem?_append_left (List.getElem?_eq_some_iff.mp found).1, found]
    | course other going onward there advance boots =>
      exact of_set there (continues_of_advance advance) boots
    | aside boots => exact ⟨boot, boots ▸ found, boot.continues_self⟩
  | planning other tree outcome =>
    obtain ⟨going, there, phase, rfl⟩ := planning_eq_some advanced
    exact of_set there (going.continues_alone going.vm going.pid _ (by rw [phase]; rfl)) rfl

/-- A request waits for a boot, or was answered as a boot can end. -/
def Booted (daemon : Daemon) (serial : Nat) : Prop :=
  ∃ boot, daemon.boots[serial]? = some boot ∧ boot.request.isBooted = true

/-- A request has neither a race nor a reaper. -/
def Unaided (daemon : Daemon) (serial : Nat) : Prop :=
  ∃ boot, daemon.boots[serial]? = some boot ∧ boot.IsUnaided

theorem Booted.advance (booted : daemon.Booted serial)
    (advanced : daemon.advance? incident = some next) : next.Booted serial := by
  obtain ⟨boot, found, booted⟩ := booted
  obtain ⟨after, present, continues⟩ := exists_continues advanced found
  exact ⟨after, present, continues.booted booted⟩

theorem Booted.pass (booted : start.Booted serial)
    (passed : start.pass? incidents = some last) : last.Booted serial :=
  pass?_keeps (·.Booted serial) Booted.advance booted passed

theorem Unaided.advance (unaided : daemon.Unaided serial)
    (advanced : daemon.advance? incident = some next) :
    next.Booted serial ∨ next.Unaided serial := by
  obtain ⟨boot, found, unaided⟩ := unaided
  obtain ⟨after, present, continues⟩ := exists_continues advanced found
  exact (continues.unaided unaided).imp (⟨after, present, ·⟩) (⟨after, present, ·⟩)

/-- Where there is no race, no race takes a step. -/
theorem raced?_eq_none (rule : Rule daemon event next) (asked : event.serial? = some serial)
    (found : daemon.boots[serial]? = some boot) (absent : boot.race = .absent) :
    event.raced? = none := by
  cases rule with
  | hear _ present phase | fallSilent present phase | recordAddress present phase
  | settleAddress present phase | settleDeadline present phase | markFailed present phase =>
    obtain rfl := Option.some.inj asked
    obtain rfl := Option.some.inj (found.symm.trans present)
    rw [phase] at absent
    cases absent
  | strike present phase | notice present phase _ =>
    obtain rfl := Option.some.inj asked
    obtain rfl := Option.some.inj (found.symm.trans present)
    exact absurd absent phase.ne_absent
  | _ => rfl

/-- As long as nobody works for a request, its steps leave its surroundings as they are. -/
theorem Owned.around_of_advance? (owned : daemon.Owned) (unaided : daemon.Unaided serial)
    (advanced : daemon.advance? incident = some next) (asked : incident.serial? = some serial) :
    next.around serial = daemon.around serial := by
  cases incident with
  | event event =>
    obtain ⟨boot, found, absent, -⟩ := unaided
    have rule := rule_of_step? advanced
    exact owned.around_of_rule rule asked (raced?_eq_none rule asked found absent)
  | planning other tree outcome =>
    obtain rfl := Option.some.inj asked
    obtain ⟨boot, found, phase, rfl⟩ := planning_eq_some advanced
    exact around_put _ _ _

end Daemon

/-! ### What the others do -/

/-- A step of a run: where it starts, what happens, and where it leads. -/
structure Moment where
  before : Daemon
  incident : Incident
  after : Daemon

/-- The steps of a run, one after the other. -/
def Daemon.moments : Daemon → List Incident → List Moment
  | _, [] => []
  | daemon, incident :: incidents =>
    match daemon.advance? incident with
    | some next => ⟨daemon, incident, next⟩ :: next.moments incidents
    | none => []

/-- What the steps of all others do to the surroundings of a request. -/
def Moment.effects (serial : Nat) (moments : List Moment) : List (Surroundings × Surroundings) :=
  (moments.filter fun moment => moment.incident.serial? != some serial).map fun moment =>
    (moment.before.around serial, moment.after.around serial)

/-- One change after the other leads from the first surroundings to the last. -/
def Surroundings.ComesBy (first : Surroundings) :
    List (Surroundings × Surroundings) → Surroundings → Prop
  | [], last => last = first
  | (before, after) :: changes, last => before = first ∧ after.ComesBy changes last

/-- Changes that change nothing lead nowhere. -/
theorem Surroundings.ComesBy.eq_of_idle {first last : Surroundings}
    {changes : List (Surroundings × Surroundings)} (comes : first.ComesBy changes last)
    (idle : ∀ change ∈ changes, change.2 = change.1) : last = first := by
  induction changes generalizing first with
  | nil => exact comes
  | cons change changes inductionHypothesis =>
    obtain ⟨begins, rest⟩ := comes
    have onward := inductionHypothesis rest fun later member =>
      idle later (List.mem_cons_of_mem _ member)
    exact onward.trans ((idle change List.mem_cons_self).trans begins)

namespace Daemon

variable {daemon next start last : Daemon} {incident : Incident} {incidents : List Incident}
  {serial : Nat} {boot : Boot}

theorem moments_cons (advanced : daemon.advance? incident = some next) :
    daemon.moments (incident :: incidents) =
      ⟨daemon, incident, next⟩ :: next.moments incidents := by
  rw [moments, advanced]

/-- The steps of a run are steps between states whose deeds and requests agree, and they are
taken for its incidents. -/
theorem Owned.of_mem_moments (owned : start.Owned) {moment : Moment}
    (member : moment ∈ start.moments incidents) :
    moment.before.Owned ∧ moment.before.advance? moment.incident = some moment.after ∧
      moment.incident ∈ incidents := by
  induction incidents generalizing start with
  | nil => cases member
  | cons incident incidents inductionHypothesis =>
    unfold moments at member
    split at member
    · rename_i next advanced
      rcases List.mem_cons.mp member with rfl | later
      · exact ⟨owned, advanced, List.mem_cons_self⟩
      · obtain ⟨before, stepped, asked⟩ := inductionHypothesis (owned.advance advanced) later
        exact ⟨before, stepped, List.mem_cons_of_mem _ asked⟩
    · cases member

/-- What surrounds a request that nobody ever works for changes only by what the others do. -/
theorem Owned.comesBy_of_pass (owned : start.Owned) (unaided : start.Unaided serial)
    (passed : start.pass? incidents = some last) (unbooted : ¬ last.Booted serial) :
    (start.around serial).ComesBy (Moment.effects serial (start.moments incidents))
        (last.around serial) ∧ last.Unaided serial := by
  induction incidents generalizing start with
  | nil =>
    obtain rfl := Option.some.inj passed
    exact ⟨rfl, unaided⟩
  | cons incident incidents inductionHypothesis =>
    obtain ⟨next, advanced, rest⟩ := pass?_cons_eq_some.mp passed
    -- a boot that begins is still to be seen at the end, where there is none
    have still : next.Unaided serial :=
      (unaided.advance advanced).resolve_left fun booted => unbooted (booted.pass rest)
    obtain ⟨comes, ends⟩ := inductionHypothesis (owned.advance advanced) still rest
    refine ⟨?_, ends⟩
    rw [moments_cons advanced]
    by_cases own : incident.serial? = some serial
    · rw [← owned.around_of_advance? unaided advanced own]
      simpa [Moment.effects, own] using comes
    · simpa [Moment.effects, own, Surroundings.ComesBy] using comes

/-! ### Before and after -/

/-- The serial number that the next request gets. -/
def nextSerial (daemon : Daemon) : Nat :=
  daemon.boots.length

theorem unaided_submit (draft : Vm) : (daemon.submit draft).Unaided daemon.nextSerial :=
  ⟨.ofDraft draft, List.getElem?_concat_length, rfl, rfl⟩

/-- A request that arrives leaves its surroundings as they are. -/
theorem around_submit (draft : Vm) :
    (daemon.submit draft).around daemon.nextSerial = daemon.around daemon.nextSerial := by
  simp [around, submit, nextSerial, List.eraseIdx_append_of_length_le, List.eraseIdx_of_length_le]

/-- For a request that has not arrived nothing is registered. -/
theorem Owned.not_registers_nextSerial (owned : daemon.Owned) :
    ¬ daemon.Registers daemon.nextSerial := by
  rw [owned.registers_iff]
  rintro ⟨boot, found, -⟩
  exact absurd (List.getElem?_eq_some_iff.mp found).1 (Nat.lt_irrefl _)

/-- Where nothing is registered for a request, all entries are in its surroundings. -/
theorem entries_around (absent : ¬ daemon.Registers serial) :
    (daemon.around serial).entries = daemon.shared.registry.active.rows := by
  refine Registry.others_eq_rows fun uuid entry member own => absent ⟨uuid, entry.vm, ?_⟩
  exact own ▸ member

/-- A daemon without an entry for a request shares what the surroundings of the request show. -/
theorem shared_eq_of_around (same : last.around serial = start.around serial)
    (gone : ¬ last.Registers serial) (absent : ¬ start.Registers serial) :
    last.shared = start.shared := by
  have entries := congrArg Surroundings.entries same
  have cancelled := congrArg Surroundings.cancelled same
  have media := congrArg Surroundings.media same
  have closing := congrArg Surroundings.closing same
  rw [entries_around gone, entries_around absent] at entries
  rcases last with ⟨_, _, ⟨⟨⟨_⟩, _⟩, _, _⟩, _, _⟩
  rcases start with ⟨_, _, ⟨⟨⟨_⟩, _⟩, _, _⟩, _, _⟩
  cases entries
  cases cancelled
  cases media
  cases closing
  rfl

/-- The work of a daemon is that of a request and that of its surroundings. -/
theorem jobs_eq_add (found : daemon.boots[serial]? = some boot) :
    daemon.jobs = boot.jobs + total ((daemon.around serial).boots.map (·.jobs)) := by
  obtain ⟨inside, rfl⟩ := List.getElem?_eq_some_iff.mp found
  have parts := (List.getElem_cons_eraseIdx_perm inside).map (·.jobs)
  unfold jobs
  rw [total_eq_sum, total_eq_sum, ← parts.sum_eq]
  exact List.sum_cons

theorem jobs_eq_around : daemon.jobs =
    total ((daemon.around daemon.nextSerial).boots.map (·.jobs)) := by
  simp [jobs, around, nextSerial, List.eraseIdx_of_length_le]

/-- A request that was answered and that nobody works for has no entry and no work. -/
theorem Owned.free_of_answered (owned : daemon.Owned) (found : daemon.boots[serial]? = some boot)
    (unaided : boot.IsUnaided) {outcome : Except FleetError Vm}
    (answered : boot.request = .answered outcome) :
    ¬ daemon.Registers serial ∧
      daemon.jobs = total ((daemon.around serial).boots.map (·.jobs)) := by
  obtain ⟨race, reaper⟩ := unaided
  constructor
  · refine owned.not_registers ⟨boot, found, ?_, by rw [answered]; exact nofun⟩
    simp [Boot.holds, RequestPhase.holds, ReaperPhase.holds, answered, reaper]
  · have none : boot.jobs = 0 := by
      simp [Boot.jobs, RequestPhase.isOpen, RacePhase.isOpen, ReaperPhase.isOpen, answered, race,
        reaper]
    rw [jobs_eq_add found, none, Nat.zero_add]

/-! ### The result -/

/-- A run whose runner was never started leaves no trace, whatever the planner, the files, the
source of addresses and the launcher do. If nothing else happens between its arrival and its
answer than that files change, then the registry with its records and tokens, the index, the
refusal of machines and the amount of work are what they were. Otherwise nothing is registered for
it any more, it has no work left, and all that is different is what the others did; and each step
of theirs changes what is its own, the entry that carries the token of its request or those that
are asked to end, unless it is that of a race that looks its machine up after its own entry is
gone. -/
theorem unspawned_run_leaves_no_trace {setup : Setup} {tree : Tree} {earlier course : List Incident}
    {before after : Daemon} {draft : Vm} {boot : Boot} {error : FleetError}
    (reached : (initial setup tree).pass? earlier = some before)
    (passed : (before.submit draft).pass? course = some after)
    (found : after.boots[before.nextSerial]? = some boot)
    (answered : boot.request = .answered (.error error))
    (unspawned : error.endsBoot = false) :
    ((∀ incident ∈ course, incident.serial? = some before.nextSerial ∨
        ∃ files, incident = .event (.disturb files)) →
      after.shared = before.shared ∧ after.jobs = before.jobs) ∧
    (¬ after.Registers before.nextSerial ∧
      (after.around before.nextSerial).entries = after.shared.registry.active.rows ∧
      after.jobs = total ((after.around before.nextSerial).boots.map (·.jobs))) ∧
    (before.around before.nextSerial).ComesBy
      (Moment.effects before.nextSerial ((before.submit draft).moments course))
      (after.around before.nextSerial) ∧
    ∀ moment ∈ (before.submit draft).moments course,
      ¬ moment.before.Overtaken moment.incident.kind →
      ActsOnOwn moment.before moment.incident.kind moment.after := by
  have ownedBefore : before.Owned := (owned_initial setup tree).pass reached
  have arrives : before.step? (.submit draft) = some (before.submit draft) := rfl
  have ownedStart : (before.submit draft).Owned := ownedBefore.step arrives
  have ownedAfter : after.Owned := ownedStart.pass passed
  have unbooted : ¬ after.Booted before.nextSerial := by
    rintro ⟨other, present, booted⟩
    obtain rfl := Option.some.inj (found.symm.trans present)
    rw [answered] at booted
    exact Bool.false_ne_true (unspawned.symm.trans booted)
  obtain ⟨comes, other, present, unaided⟩ :=
    ownedStart.comesBy_of_pass (unaided_submit draft) passed unbooted
  obtain rfl := Option.some.inj (found.symm.trans present)
  obtain ⟨gone, work⟩ := ownedAfter.free_of_answered found unaided answered
  rw [around_submit] at comes
  refine ⟨fun alone => ?_, ⟨gone, entries_around gone, work⟩, comes,
    fun moment member timely => ?_⟩
  · -- left alone, the others only change files, and those surround nobody
    have same : after.around before.nextSerial = before.around before.nextSerial := by
      refine comes.eq_of_idle fun change member => ?_
      obtain ⟨moment, others, rfl⟩ := List.mem_map.mp member
      obtain ⟨inside, foreign⟩ := List.mem_filter.mp others
      obtain ⟨-, advanced, asked⟩ := ownedStart.of_mem_moments inside
      rcases alone _ asked with own | ⟨files, disturbed⟩
      · simp [own] at foreign
      · rw [disturbed] at advanced
        rw [← Option.some.inj advanced]
        rfl
    refine ⟨shared_eq_of_around same gone ownedBefore.not_registers_nextSerial, ?_⟩
    rw [work, same, ← jobs_eq_around]
  · obtain ⟨owned, advanced, -⟩ := ownedStart.of_mem_moments member
    exact owned.actsOnOwn_of_advance? advanced timely

/-- One machine is reserved in a daemon without images. -/
def oneReserved : List Incident :=
  [.event (.submit (Vm.draft "alpha" "1.2.3")), .event (.reserve 0 (drawing 1) 7)]

/-- A second machine is reserved, its directory cannot be made, and it is given up. -/
def secondGivenUp : List Incident :=
  [.event (.reserve 1 (drawing 2) 8),
    .planning 1 (.bare default) (.error (.io "creating the directory" .accessDenied)),
    .event (.rollBack 1)]

theorem answered_secondGivenUp :
    ((imageless.pass? oneReserved).any fun before =>
      before.nextSerial == 1 && before.jobs == 1 && before.shared.registry.size == 1 &&
        ((before.submit (Vm.draft "beta" "1.2.3")).pass? secondGivenUp).any fun after =>
          after.boots[1]?.any fun boot =>
            match boot.request with
            | .answered (.error error) => error == .io "creating the directory" .accessDenied
            | _ => false) = true := by
  decide +kernel

theorem unspawned_run_leaves_no_trace_of_secondGivenUp :
    ∃ before after boot, imageless.pass? oneReserved = some before ∧
      before.shared.registry.size = 1 ∧ before.jobs = 1 ∧
      (before.submit (Vm.draft "beta" "1.2.3")).pass? secondGivenUp = some after ∧
      after.boots[1]? = some boot ∧
      boot.request = .answered (.error (.io "creating the directory" .accessDenied)) ∧
      after.shared = before.shared ∧ after.jobs = before.jobs ∧ ¬ after.Registers 1 := by
  obtain ⟨before, reached, goes⟩ := (Option.any_eq_true _ _).mp answered_secondGivenUp
  simp only [Bool.and_eq_true, beq_iff_eq] at goes
  obtain ⟨⟨⟨serial, jobs⟩, size⟩, goes⟩ := goes
  obtain ⟨after, passed, shows⟩ := (Option.any_eq_true _ _).mp goes
  obtain ⟨boot, found, here⟩ := (Option.any_eq_true _ _).mp shows
  have answered : boot.request =
      .answered (.error (.io "creating the directory" .accessDenied)) := by
    split at here
    · rename_i error answered
      rw [answered, eq_of_beq here]
    · cases here
  obtain ⟨alone, ⟨gone, -, -⟩, -, -⟩ :=
    unspawned_run_leaves_no_trace reached passed (serial ▸ found) answered rfl
  have own : ∀ incident ∈ secondGivenUp, incident.serial? = some before.nextSerial ∨
      ∃ files, incident = .event (.disturb files) := by
    rw [serial]
    simp [secondGivenUp, Incident.serial?, Incident.kind, Event.serial?]
  obtain ⟨shared, work⟩ := alone own
  exact ⟨before, after, boot, reached, size, jobs, passed, found, answered, shared, work,
    serial ▸ gone⟩

/-- A third machine is reserved, and it is given up because there is no image for it. In between
the race of the first request records its address. -/
def thirdGivenUp : List Incident :=
  [.event (.reserve 2 (drawing 3) 9), .event (.recordAddress 0),
    .planning 2 (.bare default) (.error (.imageNotFound "beta" "1.2.3")), .event (.rollBack 2)]

theorem shown_thirdGivenUp :
    (stocked.run? (firstHeard ++ secondStarted)).any (fun before =>
      before.nextSerial == 2 && before.shown == [(1, "second", "", 101, .awaitingAddress)] &&
        ((before.submit (Vm.draft "beta" "1.2.3")).pass? thirdGivenUp).any fun after =>
          after.shown == [(1, "second", "10.0.0.1", 100, .running)] &&
          after.boots[2]?.any fun boot =>
            match boot.request with
            | .answered (.error error) => error == .imageNotFound "beta" "1.2.3"
            | _ => false) = true := by
  decide +kernel

/-- A race that was overtaken reaches beyond its own: while the third request comes and goes, the
first one, which has no entry any more, writes into the entry of the second, which does nothing. -/
theorem overtaken_race_reaches_beyond_its_own :
    ∃ before after boot, stocked.run? (firstHeard ++ secondStarted) = some before ∧
      before.shown = [(1, "second", "", 101, .awaitingAddress)] ∧
      (before.submit (Vm.draft "beta" "1.2.3")).pass? thirdGivenUp = some after ∧
      after.boots[2]? = some boot ∧
      boot.request = .answered (.error (.imageNotFound "beta" "1.2.3")) ∧
      (∀ incident ∈ thirdGivenUp, incident.serial? ≠ some 1) ∧
      after.shown = [(1, "second", "10.0.0.1", 100, .running)] := by
  obtain ⟨before, reached, goes⟩ := (Option.any_eq_true _ _).mp shown_thirdGivenUp
  simp only [Bool.and_eq_true, beq_iff_eq] at goes
  obtain ⟨⟨-, first⟩, goes⟩ := goes
  obtain ⟨after, passed, shows⟩ := (Option.any_eq_true _ _).mp goes
  simp only [Bool.and_eq_true, beq_iff_eq] at shows
  obtain ⟨second, answer⟩ := shows
  obtain ⟨boot, found, here⟩ := (Option.any_eq_true _ _).mp answer
  have answered : boot.request = .answered (.error (.imageNotFound "beta" "1.2.3")) := by
    split at here
    · rename_i error answered
      rw [answered, eq_of_beq here]
    · cases here
  exact ⟨before, after, boot, reached, first, passed, found, answered,
    by simp [thirdGivenUp, Incident.serial?, Incident.kind, Event.serial?], second⟩

end Daemon

end VmFleet
