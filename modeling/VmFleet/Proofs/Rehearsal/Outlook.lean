/-
This file looks at one request of a fleet at a time. The outlook of a request is all
that a rehearsal knows of it: its phases, its runner, its record in the registry,
whether its token was cancelled and when it was answered. An event changes the outlook
of its own request and of no other, since a request that changes an entry is the one
that answers for it. So what holds of each outlook is shown for one request at a time.
-/

import VmFleet.Proofs.Rehearsal.History

namespace VmFleet

/-! ### The record of a request -/

namespace Registry

/-- The record under an identity, if it stands there for the given token. -/
def entryOf (registry : Registry) (uuid : String) (token : HaltToken) : Option Vm :=
  (registry.active.find? uuid).bind fun entry => if entry.halt = token then some entry.vm else none

theorem entryOf_eq_some_iff {registry : Registry} {uuid : String} {token : HaltToken} {vm : Vm} :
    registry.entryOf uuid token = some vm ↔ registry.active.find? uuid = some ⟨vm, token⟩ := by
  unfold entryOf
  rw [Option.bind_eq_some_iff]
  constructor
  · rintro ⟨⟨record, halt⟩, found, same⟩
    split at same
    · rename_i equal
      obtain rfl := Option.some.inj same
      exact equal ▸ found
    · cases same
  · intro found
    exact ⟨_, found, if_pos rfl⟩

theorem find?_of_entryOf {registry : Registry} {uuid : String} {token : HaltToken} {vm : Vm}
    (entered : registry.entryOf uuid token = some vm) : registry.find? uuid = some vm := by
  unfold find?
  rw [entryOf_eq_some_iff.mp entered]
  rfl

variable (registry : Registry) (uuid other : String) (token : HaltToken)

/-- What is done to the entry of an identity is done to the record that stands there. -/
theorem entryOf_of_map {after : Registry} (change : Vm → Vm)
    (changed : after.active.find? uuid =
      (registry.active.find? uuid).map fun entry => { entry with vm := change entry.vm }) :
    after.entryOf uuid token = (registry.entryOf uuid token).map change := by
  unfold entryOf
  rw [changed]
  cases registry.active.find? uuid with
  | none => rfl
  | some entry =>
    simp only [Option.map_some, Option.bind_some]
    split <;> rfl

theorem entryOf_congr {after : Registry}
    (same : after.active.find? uuid = registry.active.find? uuid) :
    after.entryOf uuid token = registry.entryOf uuid token := by
  unfold entryOf
  rw [same]

theorem entryOf_update (change : Vm → Vm) :
    (registry.update uuid change).entryOf other token =
      if uuid = other then (registry.entryOf other token).map change
      else registry.entryOf other token := by
  have found := registry.find?_update uuid other change
  split
  · rename_i here
    rw [if_pos here] at found
    exact entryOf_of_map _ _ _ change found
  · rename_i elsewhere
    rw [if_neg elsewhere] at found
    exact entryOf_congr _ _ _ found

theorem entryOf_setState (next : VmState) :
    (registry.setState uuid next).entryOf other token =
      if uuid = other then (registry.entryOf other token).map (·.moveTo next)
      else registry.entryOf other token := by
  have found := registry.find?_setState uuid other next
  split
  · rename_i here
    rw [if_pos here] at found
    exact entryOf_of_map _ _ _ (·.moveTo next) found
  · rename_i elsewhere
    rw [if_neg elsewhere] at found
    exact entryOf_congr _ _ _ found

theorem entryOf_halt (identities : List String) :
    (registry.halt identities).1.entryOf other token =
      if other ∈ identities then (registry.entryOf other token).map (·.moveTo .halting)
      else registry.entryOf other token := by
  have found := registry.find?_halt identities other
  split
  · rename_i here
    rw [if_pos here] at found
    exact entryOf_of_map _ _ _ (·.moveTo .halting) found
  · rename_i elsewhere
    rw [if_neg elsewhere] at found
    exact entryOf_congr _ _ _ found

theorem entryOf_cancel (mine : HaltToken) :
    (registry.cancel mine).entryOf other token = registry.entryOf other token :=
  entryOf_congr _ _ _ (congrArg (·.find? other) (registry.active_cancel mine))

theorem entryOf_remove :
    (registry.remove uuid).entryOf other token =
      if uuid = other then none else registry.entryOf other token := by
  have found := registry.find?_remove uuid other
  split
  · rename_i here
    rw [if_pos here] at found
    unfold entryOf
    rw [found]
    rfl
  · rename_i elsewhere
    rw [if_neg elsewhere] at found
    exact entryOf_congr _ _ _ found

theorem isCancelled_congr {left right : Registry} (same : left.cancelled = right.cancelled)
    (token : HaltToken) : left.isCancelled token = right.isCancelled token :=
  congrArg (·.contains token) same

end Registry

/-- The race has yet to write to the registry what it has found. -/
def RacePhase.writes : RacePhase → Bool
  | .heard _ | .lapsed => true
  | _ => false

namespace Daemon

variable {daemon next : Daemon} {serial : Nat} {boot : Boot} {event : Event}

/-- The record of a request in the registry. -/
def record (daemon : Daemon) (serial : Nat) (boot : Boot) : Option Vm :=
  daemon.shared.registry.entryOf boot.vm.uuid serial

/-- A request has a record exactly while somebody answers for it. -/
theorem Owned.isSome_record (owned : daemon.Owned) (found : daemon.boots[serial]? = some boot) :
    (daemon.record serial boot).isSome = boot.holds := by
  rw [Bool.eq_iff_iff, Option.isSome_iff_exists]
  constructor
  · rintro ⟨vm, entered⟩
    have present := Registry.entryOf_eq_some_iff.mp entered
    obtain ⟨answering, same, holds, -⟩ := owned.answerable (Keyed.mem_rows_of_find? present)
    obtain rfl := Option.some.inj (found.symm.trans same)
    exact holds
  · intro holds
    obtain ⟨vm, -, present⟩ := owned.entry found holds
    exact ⟨vm, Registry.entryOf_eq_some_iff.mpr present⟩

/-- Nothing stands for anybody else under the identity of a request that answers for it. -/
theorem Owned.entryOf_other (owned : daemon.Owned) (found : daemon.boots[serial]? = some boot)
    (holds : boot.holds = true) {other : Nat} (different : other ≠ serial) :
    daemon.shared.registry.entryOf boot.vm.uuid other = none := by
  obtain ⟨vm, -, present⟩ := owned.entry found holds
  unfold Registry.entryOf
  rw [present, Option.bind_some, if_neg (Ne.symm different)]

/-- The records and tokens of all other requests are left alone. -/
def Spares (serial : Nat) (daemon next : Daemon) : Prop :=
  ∀ other, other ≠ serial →
    (∀ uuid, next.shared.registry.entryOf uuid other =
      daemon.shared.registry.entryOf uuid other) ∧
    next.shared.registry.isCancelled other = daemon.shared.registry.isCancelled other

theorem spares_of_eq (same : next.shared.registry = daemon.shared.registry) :
    Spares serial daemon next := fun _ _ =>
  ⟨fun _ => by rw [same], by rw [same]⟩

/-- A change of the record under an identity that the request answers for spares the others. -/
theorem Owned.spares_withRegistry (owned : daemon.Owned)
    (found : daemon.boots[serial]? = some boot) (holds : boot.holds = true)
    {change : Registry → Registry}
    (elsewhere : ∀ uuid other, boot.vm.uuid ≠ uuid →
      (change daemon.shared.registry).entryOf uuid other =
        daemon.shared.registry.entryOf uuid other)
    (here : ∀ other, daemon.shared.registry.entryOf boot.vm.uuid other = none →
      (change daemon.shared.registry).entryOf boot.vm.uuid other = none)
    (tokens : ∀ other, other ≠ serial →
      (change daemon.shared.registry).isCancelled other =
        daemon.shared.registry.isCancelled other) (after : Boot) :
    Spares serial daemon ((daemon.withRegistry change).put serial after) := by
  refine fun other different => ⟨fun uuid => ?_, tokens other different⟩
  by_cases same : boot.vm.uuid = uuid
  · subst same
    have nothing := owned.entryOf_other found holds different
    exact (here other nothing).trans nothing.symm
  · exact elsewhere uuid other same

/-- So does a change of the record that goes with a move to another state. -/
theorem Owned.spares_record (owned : daemon.Owned) (found : daemon.boots[serial]? = some boot)
    (holds : boot.holds = true) (change : Vm → Vm) (state : VmState) (after : Boot) :
    Spares serial daemon ((daemon.withRegistry fun registry =>
      (registry.update boot.vm.uuid change).setState boot.vm.uuid state).put serial after) := by
  refine owned.spares_withRegistry found holds (fun uuid other different => ?_)
    (fun other nothing => ?_) (fun other _ => ?_) after
  · rw [Registry.entryOf_setState, if_neg different, Registry.entryOf_update, if_neg different]
  · rw [Registry.entryOf_setState, if_pos rfl, Registry.entryOf_update, if_pos rfl, nothing]
    rfl
  · exact Registry.isCancelled_congr (Registry.cancelled_setState _ _ _) other

/-- And so does a removal. -/
theorem Owned.spares_remove (owned : daemon.Owned) (found : daemon.boots[serial]? = some boot)
    (holds : boot.holds = true) (after : Boot) :
    Spares serial daemon ((daemon.withRegistry (·.remove boot.vm.uuid)).put serial after) := by
  refine owned.spares_withRegistry found holds (fun uuid other different => ?_)
    (fun other nothing => ?_) (fun other _ => rfl) after
  · rw [Registry.entryOf_remove, if_neg different]
  · rw [Registry.entryOf_remove, if_pos rfl]

/-- An admission enters a record for its own request alone. -/
theorem spares_reserve (draws : Nat → Uuid) (time : UInt64) :
    Spares serial daemon (daemon.reserve serial boot draws time) := by
  have shared : (daemon.reserve serial boot draws time).shared =
      (daemon.admission serial boot draws time).shared := by
    rfl
  cases judged : (daemon.admission serial boot draws time).outcome with
  | refused | broken =>
    refine spares_of_eq (congrArg (·.registry) (shared_reserve draws time fun vm admitted => ?_))
    rw [judged] at admitted
    cases admitted
  | admitted vm =>
    obtain ⟨-, -, -, free, entered⟩ := Shared.accept_eq_admitted judged
    rw [show (daemon.admission serial boot draws time).shared = _ from entered] at shared
    refine fun other different => ⟨fun uuid => ?_, by rw [shared]; rfl⟩
    unfold Registry.entryOf
    rw [shared, Keyed.find?_insert]
    split
    · rename_i same
      rw [← same, free, Option.bind_some, if_neg (Ne.symm different)]
      rfl
    · rfl

/-- An event changes the record and the token of its own request alone. A race that still has
to write to the registry needs that its request answers for the entry. -/
theorem Owned.spares_of_rule (owned : daemon.Owned) (rule : Rule daemon event next)
    (subject : event.subject? = some serial) (found : daemon.boots[serial]? = some boot)
    (minded : boot.race.writes = true → boot.holds = true) :
    Spares serial daemon next := by
  cases rule with
  | submit | stop | shutDown | listImages | takeImage | deleteImage | disturb => cases subject
  | reserve draws time present phase =>
    obtain rfl := Option.some.inj subject
    exact spares_reserve draws time
  | @launch _ going plan outcome present phase =>
    obtain ⟨tree, same⟩ := launch_eq daemon _ going outcome
    rw [same]
    exact spares_of_eq rfl
  | @rollBack _ going error present phase =>
    obtain rfl := Option.some.inj subject
    obtain rfl := Option.some.inj (found.symm.trans present)
    exact owned.spares_remove found (by simp [Boot.holds, phase, RequestPhase.holds]) _
  | @announce _ going plan present phase =>
    obtain rfl := Option.some.inj subject
    obtain rfl := Option.some.inj (found.symm.trans present)
    refine owned.spares_withRegistry found (by simp [Boot.holds, phase, RequestPhase.holds])
      (fun uuid other different => ?_) (fun other nothing => ?_) (fun other _ => ?_) _
    · rw [Registry.entryOf_setState, if_neg different]
    · rw [Registry.entryOf_setState, if_pos rfl, nothing]
      rfl
    · exact Registry.isCancelled_congr (Registry.cancelled_setState _ _ _) other
  | @handOver _ going now present phase =>
    obtain rfl := Option.some.inj subject
    obtain rfl := Option.some.inj (found.symm.trans present)
    obtain ⟨after, same⟩ := handOver_eq daemon _ boot now
    rw [same]
    exact owned.spares_record found (by simp [Boot.holds, phase, RequestPhase.holds]) _ _ _
  | @recordAddress _ going address present phase =>
    obtain rfl := Option.some.inj subject
    obtain rfl := Option.some.inj (found.symm.trans present)
    exact owned.spares_record found (minded (by rw [phase]; rfl)) _ _ _
  | @markFailed _ going present phase =>
    obtain rfl := Option.some.inj subject
    obtain rfl := Option.some.inj (found.symm.trans present)
    refine owned.spares_withRegistry found (minded (by rw [phase]; rfl))
      (fun uuid other different => ?_) (fun other nothing => ?_) (fun other different => ?_) _
    · rw [Registry.entryOf_cancel, Registry.entryOf_setState, if_neg different]
    · rw [Registry.entryOf_cancel, Registry.entryOf_setState, if_pos rfl, nothing]
      rfl
    · rw [Registry.isCancelled_cancel, beq_eq_false_iff_ne.mpr (Ne.symm different), Bool.or_false]
      exact Registry.isCancelled_congr (Registry.cancelled_setState _ _ _) other
  | @deregister _ going present phase =>
    obtain rfl := Option.some.inj subject
    obtain rfl := Option.some.inj (found.symm.trans present)
    exact owned.spares_remove found (by simp [Boot.holds, phase, ReaperPhase.holds]) _
  | _ => exact spares_of_eq rfl

end Daemon

namespace Rehearsal

/-! ### The runner of a request -/

/-- A runner whose token was cancelled has been asked to end by now. -/
def Guest.noteHalt (now : Nat) (cancelled : Bool) (guest : Guest) : Guest :=
  if guest.haltedAt.isNone && cancelled then { guest with haltedAt := some now } else guest

/-- A runner that is marked as its token says needs no mark. -/
theorem Guest.noteHalt_eq {now : Nat} {cancelled : Bool} {guest : Guest}
    (marked : cancelled = guest.haltedAt.isSome) : guest.noteHalt now cancelled = guest := by
  unfold Guest.noteHalt
  subst marked
  cases guest.haltedAt <;> rfl

namespace Fleet

variable {fleet : Fleet} {serial other : Nat} {boot after : Boot} {event : Event}

theorem find?_map_guests (guests : List Guest) (serial : Nat) (change : Guest → Guest)
    (keeps : ∀ guest, (change guest).serial = guest.serial) :
    (guests.map change).find? (·.serial == serial) =
      (guests.find? (·.serial == serial)).map change := by
  rw [List.find?_map]
  refine congrArg (fun test => (guests.find? test).map change) (funext fun guest => ?_)
  simp only [Function.comp_apply, keeps]

theorem serial_of_guest? {guest : Guest} (running : fleet.guest? serial = some guest) :
    guest.serial = serial := by
  simpa using List.find?_some running

theorem guest?_noteHalts (fleet : Fleet) (serial : Nat) :
    fleet.noteHalts.guest? serial = (fleet.guest? serial).map
      (Guest.noteHalt fleet.now (fleet.daemon.shared.registry.isCancelled serial)) := by
  have keeps : ∀ guest : Guest, (Guest.noteHalt fleet.now
      (fleet.daemon.shared.registry.isCancelled guest.serial) guest).serial = guest.serial := by
    intro guest
    unfold Guest.noteHalt
    split <;> rfl
  refine (find?_map_guests fleet.guests serial _ keeps).trans ?_
  show (fleet.guest? serial).map _ = _
  refine Option.map_congr fun guest running => ?_
  rw [serial_of_guest? running]

theorem guest?_noteExit (fleet : Fleet) (serial other : Nat) :
    (fleet.noteExit serial).guest? other = (fleet.guest? other).map fun guest =>
      if serial = other then { guest with endedAt := some fleet.now } else guest := by
  refine (find?_map_guests fleet.guests other _ fun guest => ?_).trans ?_
  · split <;> rfl
  · show (fleet.guest? other).map _ = _
    refine Option.map_congr fun guest running => ?_
    rw [serial_of_guest? running]
    simp only [eq_comm]

/-- A runner that is started is the runner of its request, if that had none. -/
theorem guest?_noteLaunch (fleet : Fleet) (serial other : Nat) (boot : Boot)
    (willing : (fleet.scripts.head?.getD Script.quiet).refusal = none) :
    (fleet.noteLaunch serial boot).guest? other = (fleet.guest? other).or
      (if serial = other then
        some ⟨serial, fleet.scripts.head?.getD Script.quiet, fleet.nextPid, fleet.now, none, none⟩
      else none) := by
  unfold noteLaunch guest?
  simp only [willing, Option.isSome_none, Bool.false_eq_true, if_false, List.find?_append]
  refine congrArg (Option.or _) ?_
  rw [List.find?_singleton]
  simp only [beq_iff_eq]

theorem guest?_noteLaunch_of_refusal (fleet : Fleet) (serial other : Nat) (boot : Boot)
    {error : FleetError}
    (unwilling : (fleet.scripts.head?.getD Script.quiet).refusal = some error) :
    (fleet.noteLaunch serial boot).guest? other = fleet.guest? other := by
  unfold noteLaunch guest?
  simp only [unwilling, Option.isSome_some, if_true]
  split <;> rfl

/-- What is noted before an event concerns the runner of its request alone. -/
theorem guest?_noted_of_ne (different : other ≠ serial) (boot : Boot) (event : Event) :
    (fleet.noted serial boot event).guest? other = fleet.guest? other := by
  cases event with
  | launch place outcome =>
    cases willing : (fleet.scripts.head?.getD Script.quiet).refusal with
    | none =>
      refine (guest?_noteLaunch fleet serial other boot willing).trans ?_
      rw [if_neg (Ne.symm different), Option.or_none]
    | some error => exact guest?_noteLaunch_of_refusal fleet serial other boot willing
  | exit place =>
    refine (guest?_noteExit fleet serial other).trans ?_
    simp only [if_neg (Ne.symm different), Option.map_id']
  | _ => rfl

/-! ### When a request was answered -/

/-- When a request was answered. -/
def answersOf (fleet : Fleet) (serial : Nat) : List Nat :=
  (fleet.answeredAt.filter (·.1 == serial)).map (·.2)

/-- The times of the answers after it was noted whether there is one. -/
def told (now : Nat) (request : RequestPhase) (answers : List Nat) : List Nat :=
  if !request.isAnswered || !answers.isEmpty then answers else [now]

theorem answersOf_noteAnswer (found : fleet.daemon.boots[serial]? = some boot) (other : Nat) :
    (fleet.noteAnswer serial).answersOf other =
      if serial = other then told fleet.now boot.request (fleet.answersOf serial)
      else fleet.answersOf other := by
  have asked : (fleet.daemon.boot? serial).any (·.request.isAnswered) =
      boot.request.isAnswered := by
    rw [Daemon.boot?, found]
    rfl
  have empty : fleet.answeredAt.any (·.1 == serial) = !(fleet.answersOf serial).isEmpty := by
    unfold answersOf
    rw [Bool.eq_iff_iff]
    simp
  unfold noteAnswer told
  dsimp only
  rw [asked, empty]
  by_cases same : serial = other
  · subst same
    rw [if_pos rfl]
    split
    · rfl
    · rename_i first
      have none : fleet.answersOf serial = [] := by
        simp only [Bool.or_eq_true, not_or, Bool.not_eq_true, Bool.not_eq_false',
          List.isEmpty_iff] at first
        exact first.2
      unfold answersOf at none ⊢
      rw [List.filter_append, List.map_append, none]
      simp
  · rw [if_neg same]
    split
    · rfl
    · unfold answersOf
      rw [List.filter_append, List.map_append]
      simp [same]

theorem answeredAt_noted (fleet : Fleet) (serial : Nat) (boot : Boot) (event : Event) :
    (fleet.noted serial boot event).answeredAt = fleet.answeredAt := by
  cases event <;> try rfl
  unfold noted noteLaunch
  dsimp only
  split <;> split <;> rfl

end Fleet

/-! ### The outlook -/

/-- All that a rehearsal knows of one request. -/
structure Outlook where
  bootTimeout : UInt64
  now : Nat
  boot : Boot
  guest : Option Guest
  record : Option Vm
  cancelled : Bool
  answers : List Nat

namespace Outlook

/-- The deadline of the boot of a runner. -/
def deadline (outlook : Outlook) (guest : Guest) : Nat :=
  guest.startedAt + Fleet.milliseconds outlook.bootTimeout

/-- The outlook after an event that puts the request, its runner, its record and its token in
place. Whether the runner was asked to end and whether the request has its answer is noted. -/
def shift (outlook : Outlook) (boot : Boot) (guest : Option Guest) (record : Option Vm)
    (cancelled : Bool) : Outlook where
  bootTimeout := outlook.bootTimeout
  now := outlook.now
  boot := boot
  guest := guest.map (Guest.noteHalt outlook.now cancelled)
  record := record
  cancelled := cancelled
  answers := Fleet.told outlook.now boot.request outlook.answers

/-- The runner is marked as its token says. -/
def IsMarked (outlook : Outlook) : Prop :=
  ∀ guest, outlook.guest = some guest → outlook.cancelled = guest.haltedAt.isSome

/-- An event that leaves the token alone leaves the mark of the runner alone. -/
theorem IsMarked.noteHalt {outlook : Outlook} (marked : outlook.IsMarked) :
    outlook.guest.map (Guest.noteHalt outlook.now outlook.cancelled) = outlook.guest := by
  cases running : outlook.guest with
  | none => rfl
  | some guest => exact congrArg some (Guest.noteHalt_eq (marked guest running))

end Outlook

namespace Fleet

variable {fleet : Fleet} {next : Daemon} {serial other : Nat} {boot after : Boot} {event : Event}

/-- The outlook of a request. -/
def outlook (fleet : Fleet) (serial : Nat) (boot : Boot) : Outlook where
  bootTimeout := fleet.daemon.setup.settings.bootTimeout
  now := fleet.now
  boot := boot
  guest := fleet.guest? serial
  record := fleet.daemon.record serial boot
  cancelled := fleet.daemon.shared.registry.isCancelled serial
  answers := fleet.answersOf serial

theorem guest?_happen (stepped : fleet.daemon.step? event = some next) (other : Nat) :
    (fleet.happen serial boot event).guest? other =
      ((fleet.noted serial boot event).guest? other).map
        (Guest.noteHalt fleet.now (next.shared.registry.isCancelled other)) := by
  have told : ∀ fleet : Fleet, (fleet.noteAnswer serial).guest? other = fleet.guest? other := by
    intro fleet
    unfold noteAnswer
    dsimp only
    split <;> rfl
  rw [happen_eq, told, guest?_noteHalts, stepped]
  exact congrArg (fun now => Option.map (Guest.noteHalt now _) _)
    (now_noted fleet serial boot event)

theorem answersOf_happen (stepped : fleet.daemon.step? event = some next)
    (found : next.boots[serial]? = some after) (other : Nat) :
    (fleet.happen serial boot event).answersOf other =
      if serial = other then told fleet.now after.request (fleet.answersOf serial)
      else fleet.answersOf other := by
  have same : ∀ place, (noteHalts { fleet.noted serial boot event with
      daemon := (fleet.daemon.step? event).getD fleet.daemon }).answersOf place =
        fleet.answersOf place := fun place =>
    congrArg (fun answered => (answered.filter (·.1 == place)).map (·.2))
      (answeredAt_noted fleet serial boot event)
  have present : (noteHalts { fleet.noted serial boot event with
      daemon := (fleet.daemon.step? event).getD fleet.daemon }).daemon.boots[serial]? =
        some after := by
    show ((fleet.daemon.step? event).getD fleet.daemon).boots[serial]? = some after
    rw [stepped, Option.getD_some, found]
  rw [happen_eq, answersOf_noteAnswer present, same, same]
  refine congrArg (fun now => if serial = other then told now _ _ else _) ?_
  exact now_noted fleet serial boot event

/-- What an event makes of the outlook of its request. -/
theorem outlook_happen (stepped : fleet.daemon.step? event = some next)
    (found : next.boots[serial]? = some after) :
    (fleet.happen serial boot event).outlook serial after =
      (fleet.outlook serial boot).shift after ((fleet.noted serial boot event).guest? serial)
        (next.record serial after) (next.shared.registry.isCancelled serial) := by
  have setup := Daemon.setup_of_rule (Daemon.rule_of_step? stepped)
  unfold outlook Outlook.shift
  rw [guest?_happen stepped, answersOf_happen stepped found, if_pos rfl, now_happen, daemon_happen,
    stepped, Option.getD_some, setup]

/-- An event that moves the phases of its request alone. -/
theorem outlook_happen_put
    (stepped : fleet.daemon.step? event = some (fleet.daemon.put serial after))
    (found : fleet.daemon.boots[serial]? = some boot) (vm : after.vm = boot.vm) :
    (fleet.happen serial boot event).outlook serial after =
      (fleet.outlook serial boot).shift after ((fleet.noted serial boot event).guest? serial)
        (fleet.outlook serial boot).record (fleet.outlook serial boot).cancelled := by
  refine (outlook_happen stepped ?_).trans ?_
  · show (fleet.daemon.boots.set serial after)[serial]? = some after
    rw [Daemon.boots_set found, if_pos rfl]
  · unfold outlook Daemon.record
    rw [vm]
    rfl

/-- An event leaves the outlook of every other request as it is, if that is marked as its token
says. -/
theorem outlook_happen_of_ne (stepped : fleet.daemon.step? event = some next)
    (found : next.boots[serial]? = some after) (spared : Daemon.Spares serial fleet.daemon next)
    (different : other ≠ serial) (theirs : Boot)
    (marked : (fleet.outlook other theirs).IsMarked) :
    (fleet.happen serial boot event).outlook other theirs = fleet.outlook other theirs := by
  have setup := Daemon.setup_of_rule (Daemon.rule_of_step? stepped)
  obtain ⟨entries, tokens⟩ := spared other different
  unfold outlook Daemon.record
  rw [guest?_happen stepped, answersOf_happen stepped found, if_neg (Ne.symm different), now_happen,
    daemon_happen, stepped, Option.getD_some, setup, entries, tokens,
    guest?_noted_of_ne different]
  exact congrArg (fun guest => Outlook.mk _ _ _ guest _ _ _) marked.noteHalt

end Fleet

end Rehearsal

end VmFleet
