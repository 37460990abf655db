/-
This file separates a request from its surroundings. The surroundings of a request
are what the daemon keeps apart from the request itself and from the entry that
carries its token. A request enters its machine under an identity that was free,
moves the entry it entered, and it or its reaper takes that entry out again; none of
this shows in its surroundings. Only its race looks the machine up by identity. While
the entry of the request is registered that is the one the race finds, so every step
keeps to what is its own; a race that was overtaken reaches an entry of another request.
-/

import VmFleet.Proofs.Supervision.Reuse

namespace VmFleet

/-! ### Rows that are not looked at -/

namespace Keyed

variable {α : Type} (table : Keyed α) (key : String) (keep : α → Bool)

/-- A row that is put in and not looked at might as well not be there. -/
theorem filter_rows_insert (value : α) (free : table.find? key = none)
    (dropped : keep value = false) :
    (table.insert key value).rows.filter (fun row => keep row.2) =
      table.rows.filter fun row => keep row.2 := by
  obtain ⟨rows⟩ := table
  unfold insert
  induction rows with
  | nil => simp [insertRow, dropped]
  | cons row rows inductionHypothesis =>
    obtain ⟨first, content⟩ := row
    rw [find?_cons] at free
    split at free
    · cases free
    · rename_i different
      simp only [insertRow]
      rw [if_neg (Ne.symm different)]
      split
      · exact List.filter_cons_of_neg (by simp [dropped])
      · simp only [List.filter_cons] at inductionHypothesis ⊢
        rw [inductionHypothesis free]

/-- A change to a row that is not looked at does not show. -/
theorem filter_rows_modify (change : α → α) (kept : ∀ row, keep (change row) = keep row)
    (dropped : ∀ row, (key, row) ∈ table.rows → keep row = false) :
    (table.modify key change).rows.filter (fun row => keep row.2) =
      table.rows.filter fun row => keep row.2 := by
  obtain ⟨rows⟩ := table
  unfold modify
  induction rows with
  | nil => rfl
  | cons row rows inductionHypothesis =>
    obtain ⟨first, content⟩ := row
    have rest := inductionHypothesis fun row member => dropped row (List.mem_cons_of_mem _ member)
    simp only [List.map_cons, List.filter_cons] at rest ⊢
    rw [rest]
    split
    · rename_i same
      subst same
      rw [kept, dropped content List.mem_cons_self]
      rfl
    · rfl

/-- Taking a row away that is not looked at does not show. -/
theorem filter_rows_erase (dropped : ∀ row, (key, row) ∈ table.rows → keep row = false) :
    (table.erase key).rows.filter (fun row => keep row.2) =
      table.rows.filter fun row => keep row.2 := by
  unfold erase
  rw [List.filter_filter]
  refine List.filter_congr fun ⟨other, row⟩ member => ?_
  by_cases same : other = key
  · subst same
    simp [dropped row member]
  · simp [same]

end Keyed

/-- The entry carries another token. -/
def RegistryEntry.isForeign (token : HaltToken) (entry : RegistryEntry) : Bool :=
  entry.halt != token

theorem RegistryEntry.isForeign_eq_false {token : HaltToken} {entry : RegistryEntry}
    (own : entry.halt = token) : entry.isForeign token = false := by
  simp [isForeign, own]

namespace Registry

/-- The entries that do not carry a token. -/
def others (registry : Registry) (token : HaltToken) : List (String × RegistryEntry) :=
  registry.active.rows.filter fun row => row.2.isForeign token

variable {registry : Registry} {uuid : String} {token : HaltToken}

theorem others_insert {vm : Vm} (free : registry.active.find? uuid = none) :
    { registry with active := registry.active.insert uuid ⟨vm, token⟩ }.others token =
      registry.others token :=
  registry.active.filter_rows_insert uuid (RegistryEntry.isForeign token) ⟨vm, token⟩ free
    (RegistryEntry.isForeign_eq_false rfl)

theorem others_update (change : Vm → Vm)
    (own : ∀ entry, (uuid, entry) ∈ registry.active.rows → entry.halt = token) :
    (registry.update uuid change).others token = registry.others token :=
  registry.active.filter_rows_modify uuid (RegistryEntry.isForeign token)
    (fun entry => { entry with vm := change entry.vm }) (fun _ => rfl)
    fun entry member => RegistryEntry.isForeign_eq_false (own entry member)

theorem others_setState (next : VmState)
    (own : ∀ entry, (uuid, entry) ∈ registry.active.rows → entry.halt = token) :
    (registry.setState uuid next).others token = registry.others token := by
  unfold setState
  split
  · exact others_update _ own
  · rfl

/-- An entry that is amended carries the token it had. -/
theorem others_amend (change : Vm → Vm) (next : VmState)
    (own : ∀ entry, (uuid, entry) ∈ registry.active.rows → entry.halt = token) :
    ((registry.update uuid change).setState uuid next).others token = registry.others token := by
  rw [others_setState, others_update _ own]
  intro entry member
  obtain ⟨⟨other, earlier⟩, row, same⟩ := List.mem_map.mp member
  injection same with identity entered
  subst identity
  rw [← entered, if_pos rfl]
  exact own earlier row

theorem others_remove
    (own : ∀ entry, (uuid, entry) ∈ registry.active.rows → entry.halt = token) :
    (registry.remove uuid).others token = registry.others token :=
  registry.active.filter_rows_erase uuid (RegistryEntry.isForeign token)
    fun entry member => RegistryEntry.isForeign_eq_false (own entry member)

/-- Where no entry carries the token, the others are all there are. -/
theorem others_eq_rows
    (absent : ∀ uuid entry, (uuid, entry) ∈ registry.active.rows → entry.halt ≠ token) :
    registry.others token = registry.active.rows :=
  List.filter_eq_self.mpr fun ⟨uuid, entry⟩ member => by
    simpa [RegistryEntry.isForeign] using absent uuid entry member

/-- A token that no machine carries which is asked to end is not cancelled. -/
theorem isCancelled_halt_of_spared {identities : List String}
    (spared : ∀ uuid ∈ identities, ∀ entry, registry.active.find? uuid = some entry →
      entry.halt ≠ token) :
    (registry.halt identities).1.isCancelled token = registry.isCancelled token := by
  have none : (identities.any fun uuid => (registry.active.find? uuid).any fun entry =>
      entry.halt == token) = false := by
    refine List.any_eq_false.mpr fun uuid asked carried => ?_
    obtain ⟨entry, stands, same⟩ := (Option.any_eq_true _ _).mp carried
    exact spared uuid asked entry stands (eq_of_beq same)
  rw [isCancelled_halt, none, Bool.or_false]

end Registry

/-! ### Surroundings -/

/-- What a daemon keeps apart from one request and its entry. -/
structure Surroundings where
  entries : List (String × RegistryEntry)
  cancelled : List HaltToken
  media : ImageIndex
  closing : Bool
  boots : List Boot

/-- The request that takes a step. -/
def Event.serial? : Event → Option Nat
  | .reserve serial _ _ | .prepare serial | .rollBack serial | .announce serial
  | .launch serial _ | .handOver serial _ | .answer serial | .hear serial _ | .fallSilent serial
  | .strike serial | .notice serial | .recordAddress serial | .settleAddress serial
  | .settleDeadline serial | .markFailed serial | .exit serial | .deregister serial
  | .settleExit serial | .clearConsole serial | .finish serial => some serial
  | .submit _ | .stop _ | .shutDown | .listImages | .takeImage _ _ | .deleteImage _ _
  | .disturb _ => none

namespace Daemon

/-- The surroundings of the request with a serial number. -/
def around (daemon : Daemon) (serial : Nat) : Surroundings where
  entries := daemon.shared.registry.others serial
  cancelled := daemon.shared.registry.cancelled
  media := daemon.shared.media
  closing := daemon.shared.closing
  boots := daemon.boots.eraseIdx serial

variable {daemon next : Daemon} {event : Event} {serial : Nat} {boot : Boot}

/-- A request is not part of its surroundings. -/
@[simp]
theorem around_put (daemon : Daemon) (serial : Nat) (boot : Boot) :
    (daemon.put serial boot).around serial = daemon.around serial := by
  simp [around, put, List.eraseIdx_set_eq]

/-- What happens to the own entry of a request does not show in its surroundings. -/
theorem around_withRegistry {change : Registry → Registry}
    (others : (change daemon.shared.registry).others serial =
      daemon.shared.registry.others serial)
    (cancelled : (change daemon.shared.registry).cancelled = daemon.shared.registry.cancelled) :
    (daemon.withRegistry change).around serial = daemon.around serial := by
  simp only [around, withRegistry, others, cancelled]

/-- As long as somebody answers for an entry, only that entry stands under its identity. -/
theorem Owned.halt_eq (owned : daemon.Owned) (found : daemon.boots[serial]? = some boot)
    (holds : boot.holds = true) (entry : RegistryEntry)
    (member : (boot.vm.uuid, entry) ∈ daemon.shared.registry.active.rows) :
    entry.halt = serial := by
  have unambiguous := (Registry.unambiguous_deeds_iff _).mp owned.unambiguous
  obtain ⟨vm, -, stands⟩ := owned.entry found holds
  rw [unambiguous.find?_of_mem member] at stands
  exact congrArg RegistryEntry.halt (Option.some.inj stands)

theorem around_reserve (draws : Nat → Uuid) (time : UInt64) :
    (daemon.reserve serial boot draws time).around serial = daemon.around serial := by
  have shared (guarded : Shared)
      (same : (daemon.admission serial boot draws time).shared = guarded) :
      (daemon.reserve serial boot draws time).around serial =
        { daemon with shared := guarded }.around serial := by
    refine (around_put _ _ _).trans ?_
    simp only [around, same]
  cases judged : (daemon.admission serial boot draws time).outcome with
  | admitted vm =>
    obtain ⟨-, -, -, free, entered⟩ := Shared.accept_eq_admitted judged
    rw [shared _ entered]
    simp only [around, Registry.others_insert free]
  | refused | broken =>
    rw [shared _ (shared_reserve draws time (by rw [judged]; exact nofun))]

theorem around_launch (outcome : Except FleetError Spawned) :
    (daemon.launch serial boot outcome).around serial = daemon.around serial := by
  obtain ⟨tree, same⟩ := launch_eq daemon serial boot outcome
  rw [same]
  exact around_put { daemon with tree } serial _

/-- A request and its reaper leave the surroundings of the request as they are. -/
theorem Owned.around_of_rule (owned : daemon.Owned) (rule : Rule daemon event next)
    (asked : event.serial? = some serial) (unraced : event.raced? = none) :
    next.around serial = daemon.around serial := by
  cases rule with
  | reserve draws time found phase =>
    obtain rfl := Option.some.inj asked
    exact around_reserve draws time
  | launch outcome found phase =>
    obtain rfl := Option.some.inj asked
    exact around_launch outcome
  | prepare | answer | exit | settleExit | clearConsole | finish =>
    obtain rfl := Option.some.inj asked
    exact around_put _ _ _
  | rollBack found phase =>
    obtain rfl := Option.some.inj asked
    have own := owned.halt_eq found (by simp [Boot.holds, RequestPhase.holds, phase])
    exact (around_put _ _ _).trans (around_withRegistry (Registry.others_remove own) rfl)
  | announce found phase =>
    obtain rfl := Option.some.inj asked
    have own := owned.halt_eq found (by simp [Boot.holds, RequestPhase.holds, phase])
    exact (around_put _ _ _).trans (around_withRegistry (Registry.others_setState _ own)
      (Registry.cancelled_setState _ _ _))
  | @handOver place boot now found phase =>
    obtain rfl := Option.some.inj asked
    have own := owned.halt_eq found (by simp [Boot.holds, RequestPhase.holds, phase])
    obtain ⟨after, same⟩ := handOver_eq daemon place boot now
    rw [same]
    exact (around_put _ _ _).trans (around_withRegistry (Registry.others_amend _ _ own)
      (Registry.cancelled_setState _ _ _))
  | deregister found phase =>
    obtain rfl := Option.some.inj asked
    have own := owned.halt_eq found (by simp [Boot.holds, ReaperPhase.holds, phase])
    exact (around_put _ _ _).trans (around_withRegistry (Registry.others_remove own) rfl)
  | hear | fallSilent | strike | notice | recordAddress | settleAddress | settleDeadline
  | markFailed => cases unraced
  | submit | stop | shutDown | listImages | takeImage | deleteImage | disturb => cases asked

/-! ### What a step is about -/

end Daemon

/-- The request whose race looks its machine up. -/
def Event.looksUp? : Event → Option Nat
  | .recordAddress serial | .markFailed serial => some serial
  | _ => none

namespace Daemon

variable {daemon next : Daemon} {event : Event} {serial : Nat} {boot : Boot}

/-- A race looks its machine up when the entry of its request is gone. -/
def Overtaken (daemon : Daemon) (event : Event) : Prop :=
  ∃ serial, event.looksUp? = some serial ∧ ¬ daemon.Registers serial

/-- A step is about an entry: that of the request that takes the step, or one that is asked to
end. -/
def Concerns (daemon : Daemon) (event : Event) (uuid : String) (entry : RegistryEntry) : Prop :=
  match event with
  | .stop targets => uuid ∈ daemon.shared.registry.select targets
  | .shutDown => True
  | _ => event.serial? = some entry.halt

/-- A step leaves alone what it is not about: entries, tokens and requests of others, the index
unless images are asked for, and the admission of machines unless the daemon is to close. -/
structure ActsOnOwn (daemon : Daemon) (event : Event) (next : Daemon) : Prop where
  entries : ∀ uuid entry, ¬ daemon.Concerns event uuid entry →
    ((uuid, entry) ∈ next.shared.registry.active.rows ↔
      (uuid, entry) ∈ daemon.shared.registry.active.rows)
  tokens : ∀ token, event.serial? ≠ some token →
    (∀ uuid entry, (uuid, entry) ∈ daemon.shared.registry.active.rows →
      daemon.Concerns event uuid entry → entry.halt ≠ token) →
    next.shared.registry.isCancelled token = daemon.shared.registry.isCancelled token
  requests : ∀ serial boot, event.serial? ≠ some serial → daemon.boots[serial]? = some boot →
    next.boots[serial]? = some boot
  media : event ≠ .listImages → (∀ channel version, event ≠ .takeImage channel version) →
    next.shared.media = daemon.shared.media
  closing : event ≠ .shutDown → next.shared.closing = daemon.shared.closing

/-- The requests beside one of them, by their serial numbers. -/
theorem getElem?_of_eraseIdx {left right : List Boot} {other : Nat}
    (same : left.eraseIdx serial = right.eraseIdx serial) (apart : other ≠ serial) :
    left[other]? = right[other]? := by
  rcases Nat.lt_or_gt_of_ne apart with before | behind
  · rw [← List.getElem?_eraseIdx_of_lt before, same, List.getElem?_eraseIdx_of_lt before]
  · obtain ⟨place, rfl⟩ := Nat.exists_eq_add_of_lt behind
    have shifted (boots : List Boot) :
        (boots.eraseIdx serial)[serial + place]? = boots[serial + place + 1]? :=
      List.getElem?_eraseIdx_of_ge (Nat.le_add_right _ _)
    rw [← shifted, same, shifted]

/-- A request that does not show in its surroundings acts on its own. -/
theorem actsOnOwn_of_around (asked : event.serial? = some serial)
    (same : next.around serial = daemon.around serial) : ActsOnOwn daemon event next := by
  have entries : next.shared.registry.others serial = daemon.shared.registry.others serial :=
    congrArg Surroundings.entries same
  have cancelled : next.shared.registry.cancelled = daemon.shared.registry.cancelled :=
    congrArg Surroundings.cancelled same
  refine ⟨fun uuid entry foreign => ?_, fun token _ _ => ?_, fun other present foreign stays => ?_,
    fun _ _ => congrArg Surroundings.media same, fun _ => congrArg Surroundings.closing same⟩
  · have apart : entry.isForeign serial = true := by
      unfold Concerns at foreign
      split at foreign
      · cases asked
      · exact absurd trivial foreign
      · exact bne_iff_ne.mpr fun own => foreign (asked.trans (congrArg some own.symm))
    have member (registry : Registry) :
        (uuid, entry) ∈ registry.others serial ↔ (uuid, entry) ∈ registry.active.rows :=
      List.mem_filter.trans (and_iff_left apart)
    rw [← member, entries, member]
  · unfold Registry.isCancelled
    rw [cancelled]
  · have beside : other ≠ serial := by
      rintro rfl
      exact foreign asked
    rw [getElem?_of_eraseIdx (congrArg Surroundings.boots same) beside, stays]

/-- To cancel its own token is no business of others. -/
theorem ActsOnOwn.cancel (acts : ActsOnOwn daemon event next)
    (asked : event.serial? = some serial) :
    ActsOnOwn daemon event (next.withRegistry (·.cancel serial)) := by
  refine ⟨fun uuid entry foreign => ?_, fun token foreign spared => ?_, acts.requests, acts.media,
    acts.closing⟩
  · refine Iff.trans ?_ (acts.entries uuid entry foreign)
    simp only [withRegistry, Registry.active_cancel]
  · have apart : serial ≠ token := by
      rintro rfl
      exact foreign asked
    refine Eq.trans ?_ (acts.tokens token foreign spared)
    simp [withRegistry, Registry.isCancelled_cancel, apart]

/-- Entries are looked up by their identities. -/
theorem Owned.mem_rows_iff (owned : daemon.Owned) {uuid : String} {entry : RegistryEntry} :
    (uuid, entry) ∈ daemon.shared.registry.active.rows ↔
      daemon.shared.registry.active.find? uuid = some entry :=
  ⟨((Registry.unambiguous_deeds_iff _).mp owned.unambiguous).find?_of_mem,
    Keyed.mem_rows_of_find?⟩

/-- Asking machines to end leaves every other machine alone. -/
theorem Owned.actsOnOwn_halt (owned : daemon.Owned) (after : next.Owned)
    {identities : List String}
    (about : ∀ uuid ∈ identities, ∀ entry, daemon.Concerns event uuid entry)
    (registry : next.shared.registry = (daemon.shared.registry.halt identities).1)
    (boots : next.boots = daemon.boots) (media : next.shared.media = daemon.shared.media)
    (closing : event ≠ .shutDown → next.shared.closing = daemon.shared.closing) :
    ActsOnOwn daemon event next := by
  refine ⟨fun uuid entry elsewhere => ?_, fun token _ spared => ?_,
    fun _ _ _ stays => boots ▸ stays, fun _ _ => media, closing⟩
  · rw [after.mem_rows_iff, owned.mem_rows_iff, registry, Registry.find?_halt,
      if_neg fun asked => elsewhere (about uuid asked entry)]
  · rw [registry]
    exact Registry.isCancelled_halt_of_spared fun uuid asked entry stands =>
      spared uuid entry (Keyed.mem_rows_of_find? stands) (about uuid asked entry)

/-- While the entry of its request is registered, a race acts on its own. -/
theorem Owned.actsOnOwn_of_race (owned : daemon.Owned) (rule : Rule daemon event next)
    (raced : event.raced? = some serial) (timely : ¬ daemon.Overtaken event) :
    ActsOnOwn daemon event next := by
  -- a race that looks its machine up finds its own entry
  have own {boot : Boot} (found : daemon.boots[serial]? = some boot)
      (looks : event.looksUp? = some serial) (entry : RegistryEntry)
      (member : (boot.vm.uuid, entry) ∈ daemon.shared.registry.active.rows) :
      entry.halt = serial := by
    have registers : daemon.Registers serial := by
      by_contra gone
      exact timely ⟨serial, looks, gone⟩
    obtain ⟨_, present, holds⟩ := (owned.registers_iff serial).mp registers
    obtain rfl := Option.some.inj (found.symm.trans present)
    exact owned.halt_eq found holds entry member
  cases rule with
  | hear | fallSilent | strike | notice | settleAddress | settleDeadline =>
    obtain rfl := Option.some.inj raced
    exact actsOnOwn_of_around rfl (around_put _ _ _)
  | recordAddress found phase =>
    obtain rfl := Option.some.inj raced
    refine actsOnOwn_of_around rfl ((around_put _ _ _).trans ?_)
    exact around_withRegistry (Registry.others_amend _ _ (own found rfl))
      (Registry.cancelled_setState _ _ _)
  | @markFailed place boot found phase =>
    obtain rfl := Option.some.inj raced
    have shown : ActsOnOwn daemon (.markFailed place)
        ((daemon.withRegistry (·.setState boot.vm.uuid .failed)).put place
          { boot with race := .finished }) := by
      refine actsOnOwn_of_around rfl ((around_put _ _ _).trans ?_)
      exact around_withRegistry (Registry.others_setState _ (own found rfl))
        (Registry.cancelled_setState _ _ _)
    exact shown.cancel rfl
  | _ => cases raced

/-- A step leaves alone what it is not about, unless it is that of a race that was overtaken. -/
theorem Owned.actsOnOwn_of_rule (owned : daemon.Owned) (rule : Rule daemon event next)
    (timely : ¬ daemon.Overtaken event) : ActsOnOwn daemon event next := by
  have after := owned.turn (turn_of_rule rule)
  cases asked : event.serial? with
  | some serial =>
    cases raced : event.raced? with
    | none => exact actsOnOwn_of_around asked (owned.around_of_rule rule asked raced)
    | some racing => exact owned.actsOnOwn_of_race rule raced timely
  | none =>
    cases rule with
    | stop targets =>
      exact owned.actsOnOwn_halt after (fun _ asked _ => asked) rfl rfl rfl fun _ => rfl
    | shutDown =>
      exact owned.actsOnOwn_halt after (fun _ _ _ => trivial) rfl rfl rfl
        fun other => absurd rfl other
    | submit draft =>
      refine ⟨fun _ _ _ => .rfl, fun _ _ _ => rfl, fun serial boot _ stays => ?_, fun _ _ => rfl,
        fun _ => rfl⟩
      exact (List.getElem?_append_left (List.getElem?_eq_some_iff.mp stays).1).trans stays
    | listImages =>
      obtain ⟨tree, media, same⟩ := listImages_eq daemon
      rw [same]
      exact ⟨fun _ _ _ => .rfl, fun _ _ _ => rfl, fun _ _ _ stays => stays,
        fun other => absurd rfl other, fun _ => rfl⟩
    | takeImage channel version =>
      obtain ⟨media, same⟩ := takeImage_eq daemon channel version
      rw [same]
      exact ⟨fun _ _ _ => .rfl, fun _ _ _ => rfl, fun _ _ _ stays => stays,
        fun _ other => absurd rfl (other channel version), fun _ => rfl⟩
    | deleteImage channel version | disturb tree =>
      exact ⟨fun _ _ _ => .rfl, fun _ _ _ => rfl, fun _ _ _ stays => stays, fun _ _ => rfl,
        fun _ => rfl⟩
    | _ => cases asked

end Daemon

end VmFleet
