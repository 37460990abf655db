/-
This file proves that a target means one machine, whoever looks it up. The daemon
asks its table for the identity and then searches the sorted records for the name;
a client has the sorted records only and goes through them twice. The two agree
because a machine is filed once and under the identity in its record: then at most
one record shows an identity, and wherever the sorting puts it, it is the one that
the table has there. For names both search the same list.
-/

import VmFleet.Client.Listing
import VmFleet.Proofs.Supervision.Identity

namespace VmFleet

namespace Registry

/-- Every machine is filed once, under the identity in its record. -/
structure IsFiled (registry : Registry) : Prop where
  unambiguous : registry.active.Unambiguous
  identity : ∀ uuid entry, (uuid, entry) ∈ registry.active.rows → entry.vm.uuid = uuid

/-! ### The sorted records -/

/-- Sorting loses no record and makes none up. -/
theorem mem_snapshot {registry : Registry} {vm : Vm} :
    vm ∈ registry.snapshot ↔ ∃ uuid entry, (uuid, entry) ∈ registry.active.rows ∧
      entry.vm = vm := by
  unfold snapshot Keyed.values
  rw [(List.mergeSort_perm _ _).mem_iff, List.map_map, List.mem_map]
  exact Prod.exists

variable {registry : Registry}

/-- A listed machine is filed under the identity that its record shows. -/
theorem IsFiled.find?_of_mem_snapshot (filed : registry.IsFiled) {vm : Vm}
    (listed : vm ∈ registry.snapshot) : registry.find? vm.uuid = some vm := by
  obtain ⟨uuid, entry, row, rfl⟩ := mem_snapshot.mp listed
  unfold find?
  rw [filed.identity uuid entry row, filed.unambiguous.find?_of_mem row]
  rfl

/-- A lookup in the table finds what a search of the sorted records finds. -/
theorem IsFiled.find?_snapshot (filed : registry.IsFiled) (uuid : String) :
    registry.snapshot.find? (·.uuid == uuid) = registry.find? uuid := by
  cases searched : registry.snapshot.find? (·.uuid == uuid) with
  | some vm =>
    have same : vm.uuid = uuid := by simpa using List.find?_some searched
    rw [← same, filed.find?_of_mem_snapshot (List.mem_of_find?_eq_some searched)]
  | none =>
    cases found : registry.find? uuid with
    | none => rfl
    | some vm =>
      -- the record would have to be in the list, where the search passes it by
      obtain ⟨entry, entered, rfl⟩ := Option.map_eq_some_iff.mp found
      have row := Keyed.mem_rows_of_find? entered
      have passed := List.find?_eq_none.mp searched entry.vm (mem_snapshot.mpr ⟨_, _, row, rfl⟩)
      exact absurd (beq_iff_eq.mpr (filed.identity uuid entry row)) passed

/-- A client finds the machine that is filed under a target, whatever others are called. -/
theorem IsFiled.findVm_eq (filed : registry.IsFiled) (target : String) :
    Client.findVm registry.snapshot target =
      (registry.find? target).or (registry.snapshot.find? (·.name == target)) := by
  unfold Client.findVm
  rw [filed.find?_snapshot]

/-- The daemon and a client with the sorted records mean the same machine by a target. -/
theorem IsFiled.matchTarget?_eq (filed : registry.IsFiled) (target : String) :
    registry.matchTarget? target = (Client.findVm registry.snapshot target).map (·.uuid) := by
  unfold matchTarget?
  rw [filed.findVm_eq]
  cases registry.find? target <;> rfl

/-- Who is found for a target is filed under the identity in the record that was found. -/
theorem IsFiled.find?_of_findVm (filed : registry.IsFiled) {target : String} {vm : Vm}
    (meant : Client.findVm registry.snapshot target = some vm) :
    registry.find? vm.uuid = some vm := by
  refine filed.find?_of_mem_snapshot ?_
  rcases Option.or_eq_some_iff.mp meant with found | ⟨-, found⟩ <;>
    exact List.mem_of_find?_eq_some found

/-! ### First mentions -/

/-- What was mentioned stays in front, and what is new is put behind it. -/
theorem foldl_mentions (mentioned identities : List String) :
    identities.foldl
        (fun mentioned uuid => if mentioned.contains uuid then mentioned else mentioned ++ [uuid])
        mentioned =
      mentioned ++ (identities.filter fun uuid => !mentioned.contains uuid).eraseDups := by
  induction identities generalizing mentioned with
  | nil => simp
  | cons uuid identities inductionHypothesis =>
    rw [List.foldl_cons, inductionHypothesis]
    by_cases old : uuid ∈ mentioned
    · simp [old]
    · have fresh : (uuid :: identities).filter (fun uuid => !mentioned.contains uuid) =
          uuid :: identities.filter fun uuid => !mentioned.contains uuid := by
        simp [old]
      rw [fresh, List.eraseDups_cons, List.filter_filter]
      simp [old, Bool.and_comm, beq_eq_decide]

/-- The first mentions are the row without its repetitions. -/
theorem firstMentions_eq (identities : List String) :
    firstMentions identities = identities.eraseDups := by
  refine (foldl_mentions [] identities).trans ?_
  rw [List.nil_append]
  exact congrArg List.eraseDups (List.filter_eq_self.mpr fun _ _ => rfl)

theorem mem_select_iff {targets : List String} (named : targets ≠ []) {uuid : String} :
    uuid ∈ registry.select targets ↔
      ∃ target ∈ targets, registry.matchTarget? target = some uuid := by
  unfold select
  rw [if_neg (by simpa using named), firstMentions_eq, List.mem_eraseDups, List.mem_filterMap]

/-- Who is selected is registered. -/
theorem IsFiled.contains_of_mem_select (filed : registry.IsFiled) {targets : List String}
    {uuid : String} (selected : uuid ∈ registry.select targets) :
    registry.contains uuid = true := by
  rw [contains, Keyed.contains_eq]
  by_cases named : targets = []
  · subst named
    exact Keyed.mem_keys_iff.mp selected
  · obtain ⟨target, -, means⟩ := (mem_select_iff named).mp selected
    rw [filed.matchTarget?_eq] at means
    obtain ⟨vm, meant, rfl⟩ := Option.map_eq_some_iff.mp means
    obtain ⟨entry, entered, -⟩ := Option.map_eq_some_iff.mp (filed.find?_of_findVm meant)
    rw [entered]
    rfl

/-- Who is selected is there to be asked, so all that were selected are given back. -/
theorem IsFiled.halt_selected (filed : registry.IsFiled) (targets : List String) :
    (registry.halt (registry.select targets)).2 = registry.select targets :=
  List.filter_eq_self.mpr fun _ => filed.contains_of_mem_select

/-! ### One target -/

/-- A single target selects the machine that it means, or none. -/
theorem select_singleton (target : String) :
    registry.select [target] = (registry.matchTarget? target).toList := by
  unfold select
  rw [if_neg (by simp), List.filterMap_cons, List.filterMap_nil]
  cases registry.matchTarget? target <;> rfl

theorem IsFiled.snd_halt_select (filed : registry.IsFiled) (target : String) :
    (registry.halt (registry.select [target])).2 = registry.select [target] :=
  filed.halt_selected [target]

end Registry

namespace Daemon

variable {daemon : Daemon}

/-- Entries stand under the identity of the request that answers for them, and so do their
records. -/
theorem Owned.isFiled (owned : daemon.Owned) : daemon.shared.registry.IsFiled := by
  refine ⟨(Registry.unambiguous_deeds_iff _).mp owned.unambiguous, fun uuid entry row => ?_⟩
  obtain ⟨boot, found, holds, rfl⟩ := owned.answerable row
  obtain ⟨vm, same, entered⟩ := owned.entry found holds
  have unambiguous := (Registry.unambiguous_deeds_iff _).mp owned.unambiguous
  have present := Option.some.inj ((unambiguous.find?_of_mem row).symm.trans entered)
  rw [present, ← same]
  rfl

/-- The identity of the machine that a client picks for a target from the listing. -/
def pick (daemon : Daemon) (target : String) : Option String :=
  (Client.findVm daemon.list target).map (·.uuid)

/-- In every state of a daemon a target means the same machine to a client and to the daemon,
whichever names and identities coincide and whatever the machines are doing. A stop for the
target gives back the identity of the machine that the client picks from the listing, or nothing
where it picks none. That machine is registered with the very record that was listed; it is moved
towards its end if its state allows that, its token is cancelled, and no other machine and no
other token is touched. -/
theorem stop_agrees_with_findVm {setup : Setup} {tree : Tree}
    (reached : Reachable (initial setup tree) daemon) (target : String) :
    (daemon.stop [target]).2 = ((Client.findVm daemon.list target).map (·.uuid)).toList ∧
    (∀ vm, Client.findVm daemon.list target = some vm →
      daemon.shared.registry.find? vm.uuid = some vm) ∧
    (∀ uuid, (daemon.stop [target]).1.shared.registry.active.find? uuid =
      if daemon.pick target = some uuid then
        (daemon.shared.registry.active.find? uuid).map fun entry =>
          { entry with vm := entry.vm.moveTo .halting }
      else daemon.shared.registry.active.find? uuid) ∧
    (∀ token, (daemon.stop [target]).1.shared.registry.isCancelled token = true ↔
      daemon.shared.registry.isCancelled token = true ∨
        ∃ uuid entry, daemon.pick target = some uuid ∧
          daemon.shared.registry.active.find? uuid = some entry ∧ entry.halt = token) := by
  have filed := (owned_of_reachable reached).isFiled
  have selected : daemon.shared.registry.select [target] = (daemon.pick target).toList := by
    rw [Registry.select_singleton, filed.matchTarget?_eq]
    rfl
  refine ⟨?_, fun vm meant => filed.find?_of_findVm meant, fun uuid => ?_, fun token => ?_⟩
  · exact (filed.snd_halt_select target).trans selected
  · refine (Registry.find?_halt _ _ uuid).trans ?_
    rw [selected]
    simp only [Option.mem_toList]
  · have cancelled := Registry.isCancelled_halt daemon.shared.registry
      (daemon.shared.registry.select [target]) token
    rw [selected] at cancelled
    show (daemon.shared.registry.halt (daemon.shared.registry.select [target])).1.isCancelled token =
      true ↔ _
    rw [selected, cancelled, Bool.or_eq_true]
    refine or_congr_right ?_
    cases daemon.pick target <;> simp [Option.any_eq_true]

/-- Two machines of one name, which is the identity of the younger one. -/
def borrowedName : List Event :=
  let named : Event := .submit
    { Vm.draft "alpha" "1.2.3" with name := "02020202-0202-0202-0202-020202020202" }
  [named, named, .reserve 0 (drawing 1) 7, .reserve 1 (drawing 2) 8]

theorem rows_borrowedName :
    (imageless.run? borrowedName).any (fun daemon =>
      daemon.shared.registry.active.values.map (fun entry => (entry.vm.uuid, entry.vm.name)) ==
        [("01010101-0101-0101-0101-010101010101", "02020202-0202-0202-0202-020202020202"),
          ("02020202-0202-0202-0202-020202020202", "02020202-0202-0202-0202-020202020202")] &&
      (daemon.shared.registry.find? "02020202-0202-0202-0202-020202020202").any
        (·.uuid == "02020202-0202-0202-0202-020202020202")) = true := by
  decide +kernel

theorem stop_agrees_with_findVm_of_borrowedName :
    ∃ daemon, Reachable imageless daemon ∧
      daemon.shared.registry.active.values.map (fun entry => (entry.vm.uuid, entry.vm.name)) =
        [("01010101-0101-0101-0101-010101010101", "02020202-0202-0202-0202-020202020202"),
          ("02020202-0202-0202-0202-020202020202", "02020202-0202-0202-0202-020202020202")] ∧
      (daemon.stop ["02020202-0202-0202-0202-020202020202"]).2 =
        ["02020202-0202-0202-0202-020202020202"] := by
  obtain ⟨daemon, ran, shows⟩ := (Option.any_eq_true _ _).mp rows_borrowedName
  obtain ⟨names, shows⟩ := (Bool.and_eq_true _ _).mp shows
  obtain ⟨vm, found, same⟩ := (Option.any_eq_true _ _).mp shows
  have reached : Reachable imageless daemon := reachable_iff.mpr ⟨_, ran⟩
  refine ⟨daemon, reached, eq_of_beq names, ?_⟩
  rw [(stop_agrees_with_findVm reached _).1]
  have meant := (owned_of_reachable reached).isFiled.findVm_eq
    "02020202-0202-0202-0202-020202020202"
  rw [found] at meant
  rw [list, meant]
  exact congrArg List.singleton (eq_of_beq same)

end Daemon

end VmFleet
