/-
This file proves that no machine is orphaned and none has two owners. The owner of
an entry is the request that put it in, until it hands the machine over, and the
reaper of that request from then on. The invariant ties the deeds of the registry
to the phases of the requests: a request that answers for a deed finds it under its
identity, and every deed names a request that answers for it. Each of the five turns
keeps it. What follows is read off the invariant: whoever removes an entry finds its
own, and an entry that is gone stays gone. Only a request that could not tell the deadline
of its machine leaves an entry without anybody alive; as long as every deadline is told, a
daemon without work has no machines.
-/

import VmFleet.Proofs.Supervision.BrokenOff
import VmFleet.Proofs.Supervision.Motion

namespace VmFleet

/-- Somebody who is alive and has to see that an entry is taken out again. -/
inductive Owner
  | request (serial : Nat)
  | reaper (serial : Nat)
deriving DecidableEq, Repr

/-- The request an owner belongs to. -/
def Owner.serial : Owner → Nat
  | .request serial => serial
  | .reaper serial => serial

namespace Daemon

/-- The owner answers for the entry of an identity. -/
def Owns (daemon : Daemon) (owner : Owner) (uuid : String) : Prop :=
  ∃ boot, daemon.boots[owner.serial]? = some boot ∧ boot.vm.uuid = uuid ∧
    match owner with
    | .request _ => boot.request.holds = true ∧ boot.request.isOpen = true
    | .reaper _ => boot.reaper.holds = true

/-- A machine is registered for a request. -/
def Registers (daemon : Daemon) (serial : Nat) : Prop :=
  ∃ uuid vm, (uuid, ⟨vm, serial⟩) ∈ daemon.shared.registry.active.rows

/-- How often some events take the entry of a request out of the registry. -/
def releases (serial : Nat) (events : List Event) : Nat :=
  events.countP fun event => event.released? == some serial

/-! ### The invariant -/

/-- Deeds and requests agree on who answers for what. -/
structure Owned (daemon : Daemon) : Prop where
  unambiguous : daemon.deeds.Unambiguous
  phased : ∀ (serial : Nat) (boot : Boot), daemon.boots[serial]? = some boot → boot.Phased
  held : ∀ (serial : Nat) (boot : Boot), daemon.boots[serial]? = some boot → boot.holds = true →
    daemon.deeds.find? boot.vm.uuid = some ⟨boot.vm, serial⟩
  owner : ∀ (uuid : String) (deed : RegistryEntry), daemon.deeds.find? uuid = some deed →
    ∃ boot, daemon.boots[deed.halt]? = some boot ∧ boot.holds = true ∧ boot.vm.uuid = uuid

theorem owned_initial (setup : Setup) (tree : Tree) : (initial setup tree).Owned where
  unambiguous := Keyed.unambiguous_empty
  phased _ _ found := nomatch found
  held _ _ found := nomatch found
  owner _ _ found := nomatch found

variable {daemon next : Daemon} {event : Event}

/-- A request that answers for a deed is the only one that does so under that identity. -/
theorem Owned.serial_eq (owned : daemon.Owned) {left right : Nat} {first second : Boot}
    (foundLeft : daemon.boots[left]? = some first) (holdsLeft : first.holds = true)
    (foundRight : daemon.boots[right]? = some second) (holdsRight : second.holds = true)
    (same : first.vm.uuid = second.vm.uuid) : left = right := by
  have mine := owned.held left first foundLeft holdsLeft
  have yours := owned.held right second foundRight holdsRight
  rw [same, yours] at mine
  injection mine with deed
  injection deed with _ token
  exact token.symm

/-- The invariant outlasts a turn that changes one request and leaves the deeds alone. -/
theorem Owned.course (owned : daemon.Owned) {serial : Nat} {boot after : Boot}
    (found : daemon.boots[serial]? = some boot) (onward : boot.GoesOn after)
    (boots : next.boots = daemon.boots.set serial after) (deeds : next.deeds = daemon.deeds) :
    next.Owned := by
  refine ⟨deeds ▸ owned.unambiguous, fun other present found' => ?_, fun other present found' => ?_,
    fun uuid deed entered => ?_⟩
  · rw [boots, boots_set found] at found'
    split at found'
    · obtain rfl := Option.some.inj found'
      exact onward.phased (owned.phased serial boot found)
    · exact owned.phased other present found'
  · rw [boots, boots_set found] at found'
    rw [deeds]
    split at found'
    · rename_i same
      subst same
      obtain rfl := Option.some.inj found'
      intro holds
      rw [onward.vm]
      exact owned.held serial boot found (onward.holds ▸ holds)
    · exact owned.held other present found'
  · rw [deeds] at entered
    obtain ⟨answering, present, holds, identity⟩ := owned.owner uuid deed entered
    rw [boots]
    by_cases same : serial = deed.halt
    · subst same
      obtain rfl : boot = answering := Option.some.inj (found.symm.trans present)
      refine ⟨after, ?_, onward.holds.trans holds, ?_⟩
      · rw [boots_set found, if_pos rfl]
      · rw [onward.vm, identity]
    · exact ⟨answering, by rw [boots_set found, if_neg same, present], holds, identity⟩

/-- An admission enters a deed for its own request and for nobody else. -/
theorem Owned.admission (owned : daemon.Owned) {serial : Nat} {boot : Boot} {vm : Vm}
    (found : daemon.boots[serial]? = some boot) (phase : boot.request = .arrived)
    (free : daemon.deeds.find? vm.uuid = none)
    (boots : next.boots = daemon.boots.set serial { boot with vm, request := .reserved })
    (deeds : next.deeds = daemon.deeds.insert vm.uuid ⟨vm, serial⟩) : next.Owned := by
  have absent := owned.phased serial boot found (by rw [phase]; rfl)
  have idle : boot.holds = false := by
    simp [Boot.holds, phase, absent.2, RequestPhase.holds, ReaperPhase.holds]
  refine ⟨?_, fun other present found' => ?_, fun other present found' holds => ?_,
    fun uuid deed entered => ?_⟩
  · rw [deeds]
    exact owned.unambiguous.insert _ _ free
  · rw [boots, boots_set found] at found'
    split at found'
    · obtain rfl := Option.some.inj found'
      exact fun _ => absent
    · exact owned.phased other present found'
  · rw [boots, boots_set found] at found'
    rw [deeds, Keyed.find?_insert]
    split at found'
    · rename_i same
      subst same
      obtain rfl := Option.some.inj found'
      rw [if_pos rfl]
    · have kept := owned.held other present found' holds
      rw [if_neg fun same => ?_, kept]
      rw [← same, free] at kept
      cases kept
  · rw [deeds, Keyed.find?_insert] at entered
    rw [boots]
    split at entered
    · rename_i same
      obtain rfl := Option.some.inj entered
      refine ⟨{ boot with vm, request := .reserved }, ?_, rfl, same⟩
      rw [boots_set found, if_pos rfl]
    · obtain ⟨answering, present, holds, identity⟩ := owned.owner uuid deed entered
      refine ⟨answering, ?_, holds, identity⟩
      rw [boots_set found, if_neg, present]
      rintro same
      rw [← same, found] at present
      obtain rfl := Option.some.inj present
      rw [idle] at holds
      cases holds

/-- A release strikes the deed of its own request and nobody else's. -/
theorem Owned.release (owned : daemon.Owned) {serial : Nat} {boot after : Boot}
    (found : daemon.boots[serial]? = some boot) (held : boot.holds = true)
    (freed : after.holds = false) (phased : after.Phased)
    (boots : next.boots = daemon.boots.set serial after)
    (deeds : next.deeds = daemon.deeds.erase boot.vm.uuid) : next.Owned := by
  refine ⟨?_, fun other present found' => ?_, fun other present found' holds => ?_,
    fun uuid deed entered => ?_⟩
  · rw [deeds]
    exact owned.unambiguous.erase _
  · rw [boots, boots_set found] at found'
    split at found'
    · obtain rfl := Option.some.inj found'
      exact phased
    · exact owned.phased other present found'
  · rw [boots, boots_set found] at found'
    rw [deeds, Keyed.find?_erase]
    split at found'
    · obtain rfl := Option.some.inj found'
      rw [freed] at holds
      cases holds
    · rename_i different
      rw [if_neg, owned.held other present found' holds]
      exact fun same => different (owned.serial_eq found held found' holds same)
  · rw [deeds, Keyed.find?_erase] at entered
    split at entered
    · cases entered
    · rename_i elsewhere
      obtain ⟨answering, present, holds, identity⟩ := owned.owner uuid deed entered
      refine ⟨answering, ?_, holds, identity⟩
      rw [boots, boots_set found, if_neg, present]
      rintro rfl
      obtain rfl : boot = answering := Option.some.inj (found.symm.trans present)
      exact elsewhere identity

/-- Every turn keeps the invariant. -/
theorem Owned.turn (owned : daemon.Owned) (turn : Turn daemon event next) : next.Owned := by
  cases turn with
  | arrival draft kept boots deeds =>
    refine ⟨deeds ▸ owned.unambiguous, fun serial boot found => ?_,
      fun serial boot found holds => ?_, fun uuid deed entered => ?_⟩
    · rw [boots, List.getElem?_append] at found
      split at found
      · exact owned.phased serial boot found
      · obtain rfl := List.mem_singleton.mp (List.mem_of_getElem? found)
        exact Boot.phased_ofDraft draft
    · rw [boots, List.getElem?_append] at found
      rw [deeds]
      split at found
      · exact owned.held serial boot found holds
      · obtain rfl := List.mem_singleton.mp (List.mem_of_getElem? found)
        cases holds
    · rw [deeds] at entered
      obtain ⟨answering, present, holds, identity⟩ := owned.owner uuid deed entered
      refine ⟨answering, ?_, holds, identity⟩
      have inside := (List.getElem?_eq_some_iff.mp present).1
      rw [boots, List.getElem?_append_left inside, present]
  | admission serial boot draws time vm asked found phase outcome free boots deeds =>
    exact owned.admission found phase free boots deeds
  | release serial boot after released found held freed phased begun abides boots deeds =>
    have orderly := owned.phased serial boot found
    exact owned.release found held (freed orderly) (phased orderly) boots deeds
  | course serial boot after kept found onward boots deeds =>
    exact owned.course found onward boots deeds
  | aside kept boots deeds =>
    exact ⟨deeds ▸ owned.unambiguous, boots ▸ owned.phased, boots ▸ deeds ▸ owned.held,
      boots ▸ deeds ▸ owned.owner⟩

theorem Owned.step (owned : daemon.Owned) (stepped : daemon.step? event = some next) :
    next.Owned :=
  owned.turn (turn_of_rule (rule_of_step? stepped))

theorem Owned.run {start : Daemon} {events : List Event} (owned : start.Owned)
    (ran : start.run? events = some daemon) : daemon.Owned :=
  run?_keeps Owned Owned.step owned ran

/-! ### Entries and the requests that answer for them -/

/-- An entry that stands is an entry under the identity of its request. -/
theorem Owned.entry (owned : daemon.Owned) {serial : Nat} {boot : Boot}
    (found : daemon.boots[serial]? = some boot) (holds : boot.holds = true) :
    ∃ vm, vm.lasting = boot.vm ∧
      daemon.shared.registry.active.find? boot.vm.uuid = some ⟨vm, serial⟩ := by
  have entered := owned.held serial boot found holds
  rw [deeds, Registry.find?_deeds] at entered
  obtain ⟨⟨vm, token⟩, present, deed⟩ := Option.map_eq_some_iff.mp entered
  injection deed with same token
  exact ⟨vm, same, token ▸ present⟩

/-- Who stands in the registry has a request that answers for it. -/
theorem Owned.answerable (owned : daemon.Owned) {uuid : String} {entry : RegistryEntry}
    (member : (uuid, entry) ∈ daemon.shared.registry.active.rows) :
    ∃ boot, daemon.boots[entry.halt]? = some boot ∧ boot.holds = true ∧ boot.vm.uuid = uuid := by
  have unambiguous := (Registry.unambiguous_deeds_iff _).mp owned.unambiguous
  refine owned.owner uuid entry.deed ?_
  rw [deeds, Registry.find?_deeds, unambiguous.find?_of_mem member]
  rfl

/-- A machine is registered for a request exactly while somebody answers for it. -/
theorem Owned.registers_iff (owned : daemon.Owned) (serial : Nat) :
    daemon.Registers serial ↔ ∃ boot, daemon.boots[serial]? = some boot ∧ boot.holds = true := by
  constructor
  · rintro ⟨uuid, vm, member⟩
    obtain ⟨boot, found, holds, -⟩ := owned.answerable member
    exact ⟨boot, found, holds⟩
  · rintro ⟨boot, found, holds⟩
    obtain ⟨vm, -, present⟩ := owned.entry found holds
    exact ⟨boot.vm.uuid, vm, Keyed.mem_rows_of_find? present⟩

/-- An entry has one owner, and it is the owner of the request that put the entry in. -/
theorem Owned.owner_unique (owned : daemon.Owned) (attended : daemon.Attended) {uuid : String}
    {entry : RegistryEntry}
    (member : (uuid, entry) ∈ daemon.shared.registry.active.rows) :
    ∃ owner : Owner, owner.serial = entry.halt ∧ daemon.Owns owner uuid ∧
      ∀ other, daemon.Owns other uuid → other = owner := by
  obtain ⟨boot, found, holds, identity⟩ := owned.answerable member
  -- whoever owns the identity belongs to this request
  have mine : ∀ owner, daemon.Owns owner uuid → owner.serial = entry.halt := by
    rintro owner ⟨other, present, same, answers⟩
    refine owned.serial_eq present ?_ found holds (same.trans identity.symm)
    cases owner <;> simp only at answers <;> simp [Boot.holds, answers]
  have working := attended boot (List.mem_of_getElem? found)
  have alone : boot.request.holds = true → boot.reaper.holds = false := by
    intro early
    rw [(owned.phased _ boot found (RequestPhase.isAlone_of_holds early)).2]
    rfl
  have here : ∀ owner, daemon.Owns owner uuid → match owner with
      | .request _ => boot.request.holds = true ∧ boot.request.isOpen = true
      | .reaper _ => boot.reaper.holds = true := by
    rintro owner owns
    obtain ⟨other, present, -, answers⟩ := id owns
    rw [mine owner owns, found] at present
    exact Option.some.inj present ▸ answers
  cases early : boot.request.holds with
  | true =>
    have opened := RequestPhase.isOpen_of_holds early working
    refine ⟨.request entry.halt, rfl, ⟨boot, found, identity, early, opened⟩, fun other owns => ?_⟩
    have same := mine other owns
    have answers := here other owns
    cases other with
    | request serial => exact congrArg Owner.request same
    | reaper serial =>
      rw [alone early] at answers
      cases answers
  | false =>
    have late : boot.reaper.holds = true := by simpa [Boot.holds, early] using holds
    refine ⟨.reaper entry.halt, rfl, ⟨boot, found, identity, late⟩, fun other owns => ?_⟩
    have same := mine other owns
    have answers := here other owns
    cases other with
    | request serial =>
      rw [early] at answers
      cases answers.1
    | reaper serial => exact congrArg Owner.reaper same

/-! ### A request is answered once -/

/-- A request keeps the answer that it was given. -/
theorem answered_turn (turn : Turn daemon event next) {serial : Nat} {boot : Boot}
    (found : daemon.boots[serial]? = some boot) {outcome : Except FleetError Vm}
    (answered : boot.request = .answered outcome) :
    ∃ after, next.boots[serial]? = some after ∧ after.request = .answered outcome := by
  -- whichever request the turn is about, an answer that it had it still has
  have of_set : ∀ {other : Nat} {going after : Boot}, daemon.boots[other]? = some going →
      going.Abides after → next.boots = daemon.boots.set other after →
      ∃ after, next.boots[serial]? = some after ∧ after.request = .answered outcome := by
    intro other going after present abides boots
    rw [boots, boots_set present]
    by_cases same : other = serial
    · subst same
      obtain rfl := Option.some.inj (found.symm.trans present)
      exact ⟨after, if_pos rfl, abides outcome answered⟩
    · exact ⟨boot, by rw [if_neg same, found], answered⟩
  cases turn with
  | arrival draft kept boots deeds =>
    refine ⟨boot, ?_, answered⟩
    rw [boots, List.getElem?_append_left (List.getElem?_eq_some_iff.mp found).1, found]
  | admission other arriving draws time vm asked present phase outcome' free boots deeds =>
    exact of_set present (Boot.abides_of_isAnswered _ (by rw [phase]; rfl)) boots
  | release other holding after released present held freed phased begun abides boots deeds =>
    exact of_set present abides boots
  | course other going after kept present onward boots deeds =>
    exact of_set present onward.abides boots
  | aside kept boots deeds => exact ⟨boot, boots ▸ found, answered⟩

/-! ### An entry goes once -/

/-- The entry of a request was taken out again, or the request never had one and gets none. -/
def Past (daemon : Daemon) (serial : Nat) : Prop :=
  ∃ boot, daemon.boots[serial]? = some boot ∧ boot.holds = false ∧ boot.request ≠ .arrived

/-- What is past stays past, and nothing is released for it. -/
theorem Past.turn {serial : Nat} (past : daemon.Past serial) (turn : Turn daemon event next) :
    event.released? ≠ some serial ∧ next.Past serial := by
  obtain ⟨boot, found, free, begun⟩ := past
  cases turn with
  | arrival draft kept boots deeds =>
    refine ⟨by rw [kept]; exact nofun, boot, ?_, free, begun⟩
    rw [boots, List.getElem?_append_left (List.getElem?_eq_some_iff.mp found).1, found]
  | admission other arriving draws time vm asked present phase outcome _ boots deeds =>
    refine ⟨by rw [asked]; exact nofun, boot, ?_, free, begun⟩
    rw [boots, boots_set present, if_neg, found]
    rintro rfl
    obtain rfl := Option.some.inj (found.symm.trans present)
    exact begun phase
  | release other holding after released present held freed phased _ abides boots deeds =>
    have different : other ≠ serial := by
      rintro rfl
      obtain rfl := Option.some.inj (found.symm.trans present)
      rw [free] at held
      cases held
    refine ⟨?_, boot, ?_, free, begun⟩
    · rw [released]
      exact fun same => different (Option.some.inj same)
    · rw [boots, boots_set present, if_neg different, found]
  | course other going after kept present onward boots deeds =>
    refine ⟨by rw [kept]; exact nofun, ?_⟩
    by_cases same : other = serial
    · subst same
      obtain rfl := Option.some.inj (found.symm.trans present)
      refine ⟨after, ?_, onward.holds.trans free, fun back => begun (onward.begun back)⟩
      rw [boots, boots_set present, if_pos rfl]
    · refine ⟨boot, ?_, free, begun⟩
      rw [boots, boots_set present, if_neg same, found]
  | aside kept boots deeds =>
    exact ⟨by rw [kept]; exact nofun, boot, boots ▸ found, free, begun⟩

/-- A turn leaves an entry in place, or it is the one release of that entry. -/
theorem Owned.registers_turn (owned : daemon.Owned) {serial : Nat}
    (registers : daemon.Registers serial) (turn : Turn daemon event next) :
    (event.released? ≠ some serial ∧ next.Registers serial) ∨
      (event.released? = some serial ∧ next.Past serial) := by
  have later := owned.turn turn
  rw [later.registers_iff]
  obtain ⟨boot, found, holds⟩ := (owned.registers_iff serial).mp registers
  cases turn with
  | arrival draft kept boots deeds =>
    refine .inl ⟨by rw [kept]; exact nofun, boot, ?_, holds⟩
    rw [boots, List.getElem?_append_left (List.getElem?_eq_some_iff.mp found).1, found]
  | admission other arriving draws time vm asked present phase outcome _ boots deeds =>
    refine .inl ⟨by rw [asked]; exact nofun, ?_⟩
    by_cases same : other = serial
    · subst same
      exact ⟨_, by rw [boots, boots_set present, if_pos rfl], rfl⟩
    · exact ⟨boot, by rw [boots, boots_set present, if_neg same, found], holds⟩
  | release other holding after released present held freed phased begun abides boots deeds =>
    by_cases same : other = serial
    · subst same
      have orderly := owned.phased other holding present
      refine .inr ⟨released, after, ?_, freed orderly, begun orderly⟩
      rw [boots, boots_set present, if_pos rfl]
    · refine .inl ⟨?_, boot, ?_, holds⟩
      · rw [released]
        exact fun equal => same (Option.some.inj equal)
      · rw [boots, boots_set present, if_neg same, found]
  | course other going after kept present onward boots deeds =>
    refine .inl ⟨by rw [kept]; exact nofun, ?_⟩
    by_cases same : other = serial
    · subst same
      obtain rfl := Option.some.inj (found.symm.trans present)
      exact ⟨after, by rw [boots, boots_set present, if_pos rfl], onward.holds.trans holds⟩
    · exact ⟨boot, by rw [boots, boots_set present, if_neg same, found], holds⟩
  | aside kept boots deeds =>
    exact .inl ⟨by rw [kept]; exact nofun, boot, boots ▸ found, holds⟩

theorem Owned.not_registers (owned : daemon.Owned) {serial : Nat} (past : daemon.Past serial) :
    ¬ daemon.Registers serial := by
  rw [owned.registers_iff]
  rintro ⟨boot, found, holds⟩
  obtain ⟨other, present, free, -⟩ := past
  obtain rfl := Option.some.inj (found.symm.trans present)
  rw [free] at holds
  cases holds

/-- An entry is put in by the reservation of its request. -/
theorem Owned.registers_new (owned : daemon.Owned) (turn : Turn daemon event next) {serial : Nat}
    (before : ¬ daemon.Registers serial) (after : next.Registers serial) :
    ∃ draws time, event = .reserve serial draws time := by
  obtain ⟨boot, found, holds⟩ := ((owned.turn turn).registers_iff serial).mp after
  have idle : ∀ boot, daemon.boots[serial]? = some boot → boot.holds = true → False :=
    fun boot present held => before ((owned.registers_iff serial).mpr ⟨boot, present, held⟩)
  cases turn with
  | arrival draft kept boots deeds =>
    rw [boots, List.getElem?_append] at found
    split at found
    · exact (idle boot found holds).elim
    · obtain rfl := List.mem_singleton.mp (List.mem_of_getElem? found)
      cases holds
  | admission other arriving draws time vm asked present phase outcome _ boots deeds =>
    rw [boots, boots_set present] at found
    split at found
    · rename_i same
      exact ⟨draws, time, same ▸ asked⟩
    · exact (idle boot found holds).elim
  | release other holding after released present held freed phased begun abides boots deeds =>
    rw [boots, boots_set present] at found
    split at found
    · obtain rfl := Option.some.inj found
      rw [freed (owned.phased other holding present)] at holds
      cases holds
    · exact (idle boot found holds).elim
  | course other going after kept present onward boots deeds =>
    rw [boots, boots_set present] at found
    split at found
    · rename_i same
      obtain rfl := Option.some.inj found
      exact (idle going (same ▸ present) (onward.holds ▸ holds)).elim
    · exact (idle boot found holds).elim
  | aside kept boots deeds => exact (idle boot (boots ▸ found) holds).elim

/-- Whoever takes an entry out finds it, and it is the entry of the same request. -/
theorem Owned.released (owned : daemon.Owned) (rule : Rule daemon event next) {serial : Nat}
    (released : event.released? = some serial) :
    ∃ boot vm, daemon.boots[serial]? = some boot ∧
      daemon.shared.registry.active.find? boot.vm.uuid = some ⟨vm, serial⟩ ∧
      next.shared.registry.active = daemon.shared.registry.active.erase boot.vm.uuid := by
  cases rule with
  | @rollBack _ boot error found phase =>
    obtain rfl := Option.some.inj released
    obtain ⟨vm, -, present⟩ := owned.entry found (by simp [Boot.holds, RequestPhase.holds, phase])
    exact ⟨boot, vm, found, present, rfl⟩
  | @deregister _ boot found phase =>
    obtain rfl := Option.some.inj released
    obtain ⟨vm, -, present⟩ := owned.entry found (by simp [Boot.holds, ReaperPhase.holds, phase])
    exact ⟨boot, vm, found, present, rfl⟩
  | _ => cases released

theorem releases_cons (serial : Nat) (event : Event) (events : List Event) :
    releases serial (event :: events) =
      releases serial events + if event.released? = some serial then 1 else 0 := by
  unfold releases
  rw [List.countP_cons]
  simp

/-- For a request whose entry is gone nothing is released any more. -/
theorem Past.run {serial : Nat} {later : Daemon} {events : List Event}
    (past : daemon.Past serial) (ran : daemon.run? events = some later) :
    releases serial events = 0 ∧ later.Past serial := by
  induction events generalizing daemon with
  | nil =>
    obtain rfl := Option.some.inj ran
    exact ⟨rfl, past⟩
  | cons event events inductionHypothesis =>
    obtain ⟨next, stepped, rest⟩ := run?_cons_eq_some.mp ran
    obtain ⟨kept, onward⟩ := past.turn (turn_of_rule (rule_of_step? stepped))
    obtain ⟨none, gone⟩ := inductionHypothesis onward rest
    exact ⟨by rw [releases_cons, none, if_neg kept], gone⟩

/-- From any moment at which an entry stands it is released once, or it still stands. -/
theorem Owned.registers_run (owned : daemon.Owned) {serial : Nat} {later : Daemon}
    {events : List Event} (registers : daemon.Registers serial)
    (ran : daemon.run? events = some later) :
    (releases serial events = 0 ∧ later.Registers serial) ∨
      (releases serial events = 1 ∧ ¬ later.Registers serial) := by
  induction events generalizing daemon with
  | nil =>
    obtain rfl := Option.some.inj ran
    exact .inl ⟨rfl, registers⟩
  | cons event events inductionHypothesis =>
    obtain ⟨next, stepped, rest⟩ := run?_cons_eq_some.mp ran
    rcases owned.registers_turn registers (turn_of_rule (rule_of_step? stepped)) with
      ⟨kept, standing⟩ | ⟨released, past⟩
    · rw [releases_cons, if_neg kept]
      exact inductionHypothesis (owned.step stepped) standing rest
    · obtain ⟨none, gone⟩ := past.run rest
      refine .inr ⟨by rw [releases_cons, none, if_pos released], ?_⟩
      exact ((owned.step stepped).run rest).not_registers gone

/-- Nothing was released for a request whose entry stands. -/
theorem Owned.releases_eq_zero {start : Daemon} (owned : start.Owned) {serial : Nat}
    {events : List Event} (ran : start.run? events = some daemon)
    (registers : daemon.Registers serial) : releases serial events = 0 := by
  induction events generalizing start with
  | nil => rfl
  | cons event events inductionHypothesis =>
    obtain ⟨next, stepped, rest⟩ := run?_cons_eq_some.mp ran
    have rule := rule_of_step? stepped
    rw [releases_cons, inductionHypothesis (owned.step stepped) rest, if_neg]
    intro released
    obtain ⟨boot, vm, -, present, -⟩ := owned.released rule released
    have standing : start.Registers serial := ⟨_, vm, Keyed.mem_rows_of_find? present⟩
    rcases owned.registers_turn standing (turn_of_rule rule) with ⟨kept, -⟩ | ⟨-, past⟩
    · exact kept released
    · exact ((owned.step stepped).run rest).not_registers (past.run rest).2 registers

/-! ### Work -/

theorem total_eq_zero_iff (numbers : List Nat) :
    total numbers = 0 ↔ ∀ number ∈ numbers, number = 0 := by
  induction numbers with
  | nil => simp
  | cons number numbers inductionHypothesis => simp [inductionHypothesis]

/-- A daemon has no work exactly if no request has any. -/
theorem jobs_eq_zero_iff : daemon.jobs = 0 ↔ ∀ boot ∈ daemon.boots, boot.jobs = 0 := by
  unfold jobs
  rw [total_eq_zero_iff, List.forall_mem_map]

/-- A daemon with a machine has work to do. -/
theorem Owned.jobs_pos (owned : daemon.Owned) (attended : daemon.Attended)
    (machines : daemon.shared.registry.active.rows ≠ []) : 0 < daemon.jobs := by
  obtain ⟨⟨uuid, entry⟩, member⟩ := List.exists_mem_of_ne_nil _ machines
  obtain ⟨boot, found, holds, -⟩ := owned.answerable member
  refine Nat.pos_of_ne_zero fun idle => ?_
  have none := jobs_eq_zero_iff.mp idle boot (List.mem_of_getElem? found)
  have some := boot.jobs_pos holds (attended boot (List.mem_of_getElem? found))
  omega

/-- Without work there are no machines, and every request that was judged has its answer. -/
theorem Owned.idle (owned : daemon.Owned) (attended : daemon.Attended) (idle : daemon.jobs = 0) :
    daemon.shared.registry.active.rows = [] ∧
      ∀ boot ∈ daemon.boots, boot.request ≠ .unjudged →
        ∃ outcome, boot.request = .answered outcome := by
  constructor
  · by_cases machines : daemon.shared.registry.active.rows = []
    · exact machines
    · exact absurd idle (Nat.ne_of_gt (owned.jobs_pos attended machines))
  · intro boot member judged
    have none := jobs_eq_zero_iff.mp idle boot member
    have closed : boot.request.isOpen = false := by
      refine Bool.eq_false_iff.mpr fun opened => ?_
      rw [Boot.jobs, opened] at none
      simp at none
    cases request : boot.request with
    | answered outcome => exact ⟨outcome, rfl⟩
    | unjudged => exact absurd request judged
    | abandoned => exact absurd request (attended boot member)
    | _ => rw [request] at closed; cases closed

/-! ### The result -/

/-- No machine is orphaned and none has two owners, whatever the order of the steps, as long as
every deadline could be told. Each entry has one owner that is alive, and it belongs to the
request that put the entry in; whoever removes an entry finds it there and finds its own; an
entry was never removed before, and from then on it is removed once or still stands; and there
is work for as long as there is an entry, so a daemon without work has an empty registry and has
answered every request whose sum of memory could be told. -/
theorem entries_owned_and_removed_once {setup : Setup} {tree : Tree} {daemon : Daemon}
    {earlier : List Event} (ran : (initial setup tree).run? earlier = some daemon)
    (told : ∀ serial now, Event.handOver serial now ∈ earlier →
      now + setup.settings.bootTimeout.toNat < Config.timeLimit) :
    (∀ uuid entry, (uuid, entry) ∈ daemon.shared.registry.active.rows →
      ∃ owner : Owner, owner.serial = entry.halt ∧ daemon.Owns owner uuid ∧
        ∀ other, daemon.Owns other uuid → other = owner) ∧
    (∀ event next serial, daemon.step? event = some next →
      (¬ daemon.Registers serial → next.Registers serial →
        ∃ draws time, event = .reserve serial draws time) ∧
      (event.released? = some serial →
        ∃ boot vm, daemon.boots[serial]? = some boot ∧
          daemon.shared.registry.active.find? boot.vm.uuid = some ⟨vm, serial⟩ ∧
          next.shared.registry.active = daemon.shared.registry.active.erase boot.vm.uuid)) ∧
    (∀ serial, daemon.Registers serial →
      releases serial earlier = 0 ∧
      ∀ events later, daemon.run? events = some later →
        (releases serial events = 0 ∧ later.Registers serial) ∨
          (releases serial events = 1 ∧ ¬ later.Registers serial)) ∧
    (daemon.shared.registry.active.rows ≠ [] → 0 < daemon.jobs) ∧
    (daemon.jobs = 0 →
      daemon.shared.registry.active.rows = [] ∧
        ∀ boot ∈ daemon.boots, boot.request ≠ .unjudged →
          ∃ outcome, boot.request = .answered outcome) := by
  have start := owned_initial setup tree
  have owned := start.run ran
  have attended := (attended_initial setup tree).run told ran
  refine ⟨fun uuid entry member => owned.owner_unique attended member,
    fun event next serial stepped => ?_, fun serial registers => ?_, owned.jobs_pos attended,
    owned.idle attended⟩
  · have rule := rule_of_step? stepped
    exact ⟨owned.registers_new (turn_of_rule rule), owned.released rule⟩
  · exact ⟨start.releases_eq_zero ran registers,
      fun events later onward => owned.registers_run registers onward⟩

/-- A daemon without images, so that every machine it admits is soon given up. -/
def imageless : Daemon :=
  initial
    { settings := ⟨⟨[0x2F]⟩, 30, 3, 1024, 8192, 8192⟩
      store := ⟨⟨[0x2F]⟩, [], [], default⟩
      runner := ⟨[]⟩
      macs := MacSource.ofOctets }
    (.bare default)

/-- Two requests are admitted, the runner of the first one does not start, and the second one
hands its machine over. -/
def oneOfTwoGivenUp : List Event :=
  let drawn (octet : UInt8) : Nat → Uuid :=
    fun _ => ⟨List.replicate 16 octet, List.length_replicate⟩
  [.submit (Vm.draft "alpha" "1.2.3"), .submit (Vm.draft "alpha" "1.2.3"),
    .reserve 0 (drawn 1) 7, .prepare 0, .announce 0, .launch 0 (.error .insufficientPrivilege),
    .reserve 1 (drawn 2) 8, .prepare 1, .announce 1, .launch 1 (.ok ⟨100, false⟩),
    .handOver 1 2, .rollBack 0]

theorem tokens_oneOfTwoGivenUp :
    (stocked.run? oneOfTwoGivenUp).any
      (fun daemon => daemon.shared.registry.active.values.map (·.halt) == [1]) = true := by
  decide +kernel

theorem entries_owned_and_removed_once_of_two :
    ∃ daemon, stocked.run? oneOfTwoGivenUp = some daemon ∧ daemon.Registers 1 ∧
      releases 1 oneOfTwoGivenUp = 0 ∧ 0 < daemon.jobs := by
  obtain ⟨daemon, ran, tokens⟩ := (Option.any_eq_true _ _).mp tokens_oneOfTwoGivenUp
  have member : 1 ∈ daemon.shared.registry.active.values.map (·.halt) := by
    rw [eq_of_beq tokens]
    exact List.mem_singleton_self 1
  obtain ⟨entry, stands, token⟩ := List.mem_map.mp member
  obtain ⟨⟨uuid, ⟨vm, _⟩⟩, row, rfl⟩ := List.mem_map.mp stands
  have registers : daemon.Registers 1 := ⟨uuid, vm, token ▸ row⟩
  have told : ∀ serial now, Event.handOver serial now ∈ oneOfTwoGivenUp →
      now + stocked.setup.settings.bootTimeout.toNat < Config.timeLimit := by
    intro serial now member
    obtain ⟨-, rfl⟩ : serial = 1 ∧ now = 2 := by simpa [oneOfTwoGivenUp] using member
    decide
  obtain ⟨-, -, once, work, -⟩ := entries_owned_and_removed_once ran told
  exact ⟨daemon, ran, registers, (once 1 registers).1, work (List.ne_nil_of_mem row)⟩

end Daemon

end VmFleet
