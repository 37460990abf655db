/-
This file proves whom a stop asks to end, and that it touches nobody else. What a target
means is said without the table and its sorting: the machine of that identity, else the
oldest one of that name. The answer is the machines that the targets mean, each at its
first mention. It is chosen by the deeds alone, which asking does not change, so asking
again finds the same machines; they are at their end already, and nothing happens.
-/

import Mathlib.Data.List.Forall2
import Mathlib.Data.List.ReduceOption
import VmFleet.Proofs.Supervision.Closing
import VmFleet.Proofs.Supervision.Target

namespace VmFleet

/-! ### Age -/

/-- The first machine is older, or the two are of one age and its identity is not the larger. -/
def Vm.Precedes (left right : Vm) : Prop :=
  left.createdAt < right.createdAt ∨
    left.createdAt = right.createdAt ∧ ¬right.uuid < left.uuid

namespace Registry

theorem notYounger_iff (left right : Vm) : notYounger left right = true ↔ left.Precedes right := by
  unfold notYounger Vm.Precedes
  simp only [Bool.or_eq_true, Bool.and_eq_true, Bool.not_eq_true', decide_eq_true_eq,
    decide_eq_false_iff_not, beq_iff_eq]

theorem notYounger_trans {first second third : Vm} (early : notYounger first second = true)
    (late : notYounger second third = true) : notYounger first third = true := by
  rw [notYounger_iff] at *
  rcases early with before | ⟨same, smaller⟩ <;> rcases late with after | ⟨equal, less⟩
  · exact .inl (UInt64.lt_trans before after)
  · exact .inl (equal ▸ before)
  · exact .inl (same ▸ after)
  · exact .inr ⟨same.trans equal, String.le_trans smaller less⟩

theorem notYounger_total (left right : Vm) :
    (notYounger left right || notYounger right left) = true := by
  rw [Bool.or_eq_true, notYounger_iff, notYounger_iff]
  by_cases same : left.createdAt = right.createdAt
  · rcases String.le_total left.uuid right.uuid with smaller | larger
    · exact .inl (.inr ⟨same, smaller⟩)
    · exact .inr (.inr ⟨same.symm, larger⟩)
  · exact (UInt64.lt_or_lt_of_ne same).imp .inl .inl

/-- Of two machines that precede each other, there is one. -/
theorem uuid_eq_of_precedes {left right : Vm} (forth : left.Precedes right)
    (back : right.Precedes left) : left.uuid = right.uuid := by
  rcases forth with before | ⟨same, smaller⟩ <;> rcases back with after | ⟨equal, less⟩
  · exact absurd (UInt64.lt_trans before after) (UInt64.lt_irrefl _)
  · exact absurd (equal ▸ before) (UInt64.lt_irrefl _)
  · exact absurd (same ▸ after) (UInt64.lt_irrefl _)
  · exact String.le_antisymm smaller less

/-! ### What a target means -/

/-- What a target means: the machine of that identity; where there is none, the oldest machine of
that name; and else nothing. -/
inductive Means (registry : Registry) (target : String) : Option Vm → Prop
  | identity {vm : Vm} (found : registry.find? target = some vm) : registry.Means target (some vm)
  | name {vm : Vm} (free : registry.find? target = none)
    (found : registry.find? vm.uuid = some vm) (named : vm.name = target)
    (oldest : ∀ uuid other, registry.find? uuid = some other → other.name = target →
      vm.Precedes other) : registry.Means target (some vm)
  | nothing (free : registry.find? target = none)
    (nameless : ∀ uuid other, registry.find? uuid = some other → other.name ≠ target) :
    registry.Means target none

/-- The machine that is found for a target: by its identity, else by its name. -/
def meant? (registry : Registry) (target : String) : Option Vm :=
  (registry.find? target).or (registry.snapshot.find? (·.name == target))

theorem matchTarget?_eq_meant? (registry : Registry) (target : String) :
    registry.matchTarget? target = (registry.meant? target).map (·.uuid) := by
  unfold matchTarget? meant?
  cases registry.find? target <;> rfl

variable {registry : Registry}

theorem mem_snapshot_of_find? {uuid : String} {vm : Vm} (found : registry.find? uuid = some vm) :
    vm ∈ registry.snapshot := by
  obtain ⟨entry, entered, rfl⟩ := Option.map_eq_some_iff.mp found
  exact mem_snapshot.mpr ⟨uuid, entry, Keyed.mem_rows_of_find? entered, rfl⟩

/-- The first record of a name in the sorted row is the oldest one of that name. -/
theorem precedes_of_find?_snapshot {target : String} {vm : Vm}
    (first : registry.snapshot.find? (·.name == target) = some vm) {other : Vm}
    (listed : other ∈ registry.snapshot) (named : other.name = target) : vm.Precedes other := by
  obtain ⟨-, before, after, row, passed⟩ := List.find?_eq_some_iff_append.mp first
  have sorted : registry.snapshot.Pairwise fun left right => notYounger left right = true :=
    @List.pairwise_mergeSort _ notYounger (fun _ _ _ => notYounger_trans) notYounger_total _
  rw [row] at listed sorted
  rcases List.mem_append.mp listed with early | late
  · have different := passed other early
    rw [named, beq_self_eq_true] at different
    cases different
  · rcases List.mem_cons.mp late with rfl | later
    · exact .inr ⟨rfl, String.le_refl _⟩
    · exact (notYounger_iff _ _).mp
        ((List.pairwise_cons.mp (List.pairwise_append.mp sorted).2.1).1 other later)

/-- What is found for a target is what it means, and it means nothing else. -/
theorem IsFiled.means_iff (filed : registry.IsFiled) {target : String} {meant : Option Vm} :
    registry.Means target meant ↔ registry.meant? target = meant := by
  have found {vm : Vm} (first : registry.snapshot.find? (·.name == target) = some vm) :=
    filed.find?_of_mem_snapshot (List.mem_of_find?_eq_some first)
  unfold meant?
  constructor
  · intro means
    cases means with
    | identity entered => rw [entered, Option.some_or]
    | @name vm free entered named oldest =>
      rw [free, Option.none_or]
      have listed := mem_snapshot_of_find? entered
      cases first : registry.snapshot.find? (·.name == target) with
      | none => exact absurd (beq_iff_eq.mpr named) (List.find?_eq_none.mp first vm listed)
      | some other =>
        have alike : other.name = target := by simpa using List.find?_some first
        have same : other.uuid = vm.uuid :=
          uuid_eq_of_precedes (precedes_of_find?_snapshot first listed named)
            (oldest _ other (found first) alike)
        rw [← found first, same, entered]
    | nothing free nameless =>
      rw [free, Option.none_or, List.find?_eq_none]
      intro vm listed alike
      exact nameless _ vm (filed.find?_of_mem_snapshot listed) (beq_iff_eq.mp alike)
  · rintro rfl
    cases entered : registry.find? target with
    | some vm => exact .identity entered
    | none =>
      rw [Option.none_or]
      cases first : registry.snapshot.find? (·.name == target) with
      | some vm =>
        exact .name entered (found first) (by simpa using List.find?_some first)
          fun uuid other present alike =>
            precedes_of_find?_snapshot first (mem_snapshot_of_find? present) alike
      | none =>
        refine .nothing entered fun uuid other present alike => ?_
        exact absurd (beq_iff_eq.mpr alike)
          (List.find?_eq_none.mp first other (mem_snapshot_of_find? present))

/-! ### What is selected -/

theorem nodup_eraseDups (identities : List String) : identities.eraseDups.Nodup := by
  induction length : identities.length using Nat.strongRecOn generalizing identities with
  | ind size inductionHypothesis =>
    cases identities with
    | nil => exact List.nodup_nil
    | cons uuid identities =>
      rw [List.eraseDups_cons, List.nodup_cons, List.mem_eraseDups]
      refine ⟨by simp, inductionHypothesis _ ?_ _ rfl⟩
      rw [← length]
      exact Nat.lt_succ_of_le (List.length_filter_le _ _)

theorem select_of_ne_nil {targets : List String} (named : targets ≠ []) :
    registry.select targets =
      ((targets.map registry.meant?).reduceOption.map (·.uuid)).eraseDups := by
  unfold select
  rw [if_neg (by simpa using named), firstMentions_eq, List.reduceOption, List.map_filterMap,
    List.filterMap_map]
  refine congrArg List.eraseDups (List.filterMap_congr fun target _ => ?_)
  rw [matchTarget?_eq_meant?]
  rfl

/-! ### What the choice depends on -/

/-- The machine that a target means is told by the deeds. -/
theorem matchTarget?_deeds (target : String) :
    (⟨registry.deeds, []⟩ : Registry).matchTarget? target = registry.matchTarget? target := by
  have found : (⟨registry.deeds, []⟩ : Registry).find? target =
      (registry.find? target).map Vm.lasting := by
    unfold find?
    rw [find?_deeds, Option.map_map, Option.map_map]
    rfl
  have sorted : (⟨registry.deeds, []⟩ : Registry).snapshot = registry.snapshot.map Vm.lasting := by
    unfold snapshot
    refine Eq.trans ?_ (List.map_mergeSort (s := notYounger) fun _ _ _ _ => rfl).symm
    simp [deeds, Keyed.view, Keyed.values, RegistryEntry.deed, Function.comp_def]
  unfold matchTarget?
  rw [found, sorted, List.find?_map]
  cases registry.find? target with
  | some vm => rfl
  | none => exact Option.map_map _ _ _

theorem select_congr {left right : Registry} (same : left.deeds = right.deeds)
    (targets : List String) : left.select targets = right.select targets := by
  have keys : left.active.keys = right.active.keys := by
    have keys := congrArg Keyed.keys same
    rwa [deeds, deeds, Keyed.keys_view, Keyed.keys_view] at keys
  have means : left.matchTarget? = right.matchTarget? := by
    funext target
    rw [← matchTarget?_deeds, same, matchTarget?_deeds]
  unfold select
  rw [keys, means]

/-! ### Asking -/

/-- Who is at the end already and has a cancelled token is not changed by being asked. -/
theorem haltOne_of_asked {uuid : String}
    (asked : ∀ entry, registry.active.find? uuid = some entry →
      entry.vm.state = .halting ∧ registry.isCancelled entry.halt = true) :
    registry.haltOne uuid = registry := by
  unfold haltOne
  cases found : registry.active.find? uuid with
  | none => rfl
  | some entry =>
    obtain ⟨state, cancelled⟩ := asked entry found
    simp [state, VmState.canMove, cancel, cancelled]

theorem halt_of_asked {identities : List String}
    (asked : ∀ uuid ∈ identities, ∀ entry, registry.active.find? uuid = some entry →
      entry.vm.state = .halting ∧ registry.isCancelled entry.halt = true) :
    (registry.halt identities).1 = registry := by
  show identities.foldl haltOne registry = registry
  induction identities with
  | nil => rfl
  | cons uuid identities inductionHypothesis =>
    rw [List.foldl_cons, haltOne_of_asked (asked uuid List.mem_cons_self)]
    exact inductionHypothesis fun other member => asked other (List.mem_cons_of_mem _ member)

/-- What asking some machines to end does: they are registered, at their end and with their tokens
cancelled and otherwise as they were; every other machine has its record and its token as before;
nobody is taken out or put in, and no token is cancelled that is not one of theirs. -/
structure Signals (before : Registry) (identities : List String) (after : Registry) : Prop where
  keys : after.active.keys = before.active.keys
  registered : ∀ uuid ∈ identities, before.contains uuid = true
  asked : ∀ uuid ∈ identities, ∀ entry, before.active.find? uuid = some entry →
    after.active.find? uuid = some { entry with vm := { entry.vm with state := .halting } } ∧
      after.isCancelled entry.halt = true
  spared : ∀ uuid, uuid ∉ identities → ∀ entry, before.active.find? uuid = some entry →
    after.active.find? uuid = some entry ∧
      after.isCancelled entry.halt = before.isCancelled entry.halt
  tokens : ∀ token, after.isCancelled token = true → before.isCancelled token = true ∨
    ∃ uuid ∈ identities, ∃ entry, before.active.find? uuid = some entry ∧ entry.halt = token

/-- Asking machines that are registered, where no two share a token and none is reaped. -/
theorem signals_halt {identities : List String}
    (registered : ∀ uuid ∈ identities, registry.contains uuid = true)
    (alive : ∀ uuid entry, registry.active.find? uuid = some entry → entry.vm.state ≠ .reaped)
    (apart : ∀ uuid entry other record, registry.active.find? uuid = some entry →
      registry.active.find? other = some record → entry.halt = record.halt → uuid = other) :
    registry.Signals identities (registry.halt identities).1 where
  keys := by
    have keys := congrArg Keyed.keys (deeds_halt registry identities)
    rwa [deeds, deeds, Keyed.keys_view, Keyed.keys_view] at keys
  registered := registered
  asked uuid member entry found := by
    constructor
    · rw [find?_halt, if_pos member, found, Option.map_some]
      have halting := Vm.state_moveTo_halting (alive uuid entry found)
      unfold Vm.moveTo at halting ⊢
      split
      · rfl
      · rename_i refused
        rw [if_neg refused] at halting
        rw [← halting]
    · rw [isCancelled_halt, Bool.or_eq_true, List.any_eq_true]
      exact .inr ⟨uuid, member, by rw [found]; exact beq_self_eq_true entry.halt⟩
  spared uuid absent entry found := by
    constructor
    · rw [find?_halt, if_neg absent, found]
    · rw [isCancelled_halt, Bool.or_eq_left_iff_imp]
      intro cancelled
      obtain ⟨other, member, shared⟩ := List.any_eq_true.mp cancelled
      obtain ⟨record, present, same⟩ := (Option.any_eq_true _ _).mp shared
      have same := apart other record uuid entry present found (beq_iff_eq.mp same)
      exact absurd (same ▸ member) absent
  tokens token cancelled := by
    rw [isCancelled_halt, Bool.or_eq_true, List.any_eq_true] at cancelled
    refine cancelled.imp_right fun ⟨uuid, member, shared⟩ => ?_
    obtain ⟨entry, found, same⟩ := (Option.any_eq_true _ _).mp shared
    exact ⟨uuid, member, entry, found, beq_iff_eq.mp same⟩

/-- Whom a stop has asked is asked already. -/
theorem Signals.halting {after : Registry} {identities : List String}
    (signals : registry.Signals identities after) :
    ∀ uuid ∈ identities, ∀ entry, after.active.find? uuid = some entry →
      entry.vm.state = .halting ∧ after.isCancelled entry.halt = true := by
  intro uuid member entry found
  have registered := signals.registered uuid member
  rw [contains, Keyed.contains_eq] at registered
  obtain ⟨earlier, present⟩ := Option.isSome_iff_exists.mp registered
  obtain ⟨same, cancelled⟩ := signals.asked uuid member earlier present
  obtain rfl := Option.some.inj (same.symm.trans found)
  exact ⟨rfl, cancelled⟩

end Registry

namespace Daemon

variable {daemon : Daemon}

/-- Each machine has a token of its own. -/
theorem Owned.uuid_eq_of_halt (owned : daemon.Owned) (uuid : String) (entry : RegistryEntry)
    (other : String) (record : RegistryEntry)
    (found : daemon.shared.registry.active.find? uuid = some entry)
    (present : daemon.shared.registry.active.find? other = some record)
    (same : entry.halt = record.halt) : uuid = other := by
  obtain ⟨boot, submitted, -, rfl⟩ := owned.answerable (Keyed.mem_rows_of_find? found)
  obtain ⟨next, asked, -, rfl⟩ := owned.answerable (Keyed.mem_rows_of_find? present)
  rw [same, asked] at submitted
  rw [Option.some.inj submitted]

/-- What a stop does where every machine is filed under its identity: all that were selected are
asked and given back. -/
theorem stop_eq (filed : daemon.shared.registry.IsFiled) (targets : List String) :
    daemon.stop targets =
      (daemon.withRegistry fun registry => (registry.halt (registry.select targets)).1,
        daemon.shared.registry.select targets) :=
  Prod.ext rfl (filed.halt_selected targets)

/-! ### The result -/

/-- A stop asks exactly the machines that its targets mean to end, in every state of a daemon. No
targets mean every machine. Else the answer is what each target means, the machine of that identity
or the oldest of that name, in order of first mention and each once. Who is answered is at its end
afterwards, with its token cancelled and the rest of its record as it was; everybody else and
everything else stays as it was, and nobody is deregistered. Other targets that are the same up to
their order and repetition mean the same machines, and the same stop once more answers the same and
changes nothing. -/
theorem stop_signals_meant {setup : Setup} {tree : Tree}
    (reached : Reachable (initial setup tree) daemon) (targets : List String) :
    ∃ registry answer, daemon.stop targets = (daemon.withRegistry fun _ => registry, answer) ∧
      daemon.shared.registry.Signals answer registry ∧
      answer.Nodup ∧
      (targets = [] → answer = daemon.shared.registry.active.keys) ∧
      (targets ≠ [] → ∃ meant,
        (∀ row, List.Forall₂ daemon.shared.registry.Means targets row ↔ row = meant) ∧
          answer = (meant.reduceOption.map (·.uuid)).eraseDups) ∧
      (∀ others, (∀ target, target ∈ others ↔ target ∈ targets) →
        ∀ uuid, uuid ∈ (daemon.stop others).2 ↔ uuid ∈ answer) ∧
      (daemon.withRegistry fun _ => registry).stop targets =
        (daemon.withRegistry fun _ => registry, answer) := by
  have owned := owned_of_reachable reached
  have filed := owned.isFiled
  have signals : daemon.shared.registry.Signals (daemon.shared.registry.select targets)
      (daemon.shared.registry.halt (daemon.shared.registry.select targets)).1 :=
    Registry.signals_halt (fun _ => filed.contains_of_mem_select) (alive_of_reachable reached)
      owned.uuid_eq_of_halt
  refine ⟨_, _, stop_eq filed targets, signals, ?_, ?_, fun named => ?_, fun others same uuid => ?_,
    ?_⟩
  · by_cases named : targets = []
    · subst named
      exact filed.unambiguous
    · rw [Registry.select_of_ne_nil named]
      exact Registry.nodup_eraseDups _
  · rintro rfl
    rfl
  · refine ⟨targets.map daemon.shared.registry.meant?, fun row => ?_,
      Registry.select_of_ne_nil named⟩
    have means : daemon.shared.registry.Means =
        fun target meant => daemon.shared.registry.meant? target = meant := by
      funext target meant
      exact propext filed.means_iff
    rw [means, eq_comm, ← List.forall₂_eq_eq_eq, List.forall₂_map_left_iff]
  · rw [stop_eq filed others]
    by_cases named : targets = []
    · subst named
      have unnamed : others = [] := List.eq_nil_iff_forall_not_mem.mpr fun target member =>
        nomatch (same target).mp member
      rw [unnamed]
    · have mentioned : others ≠ [] := by
        rintro rfl
        obtain ⟨target, member⟩ := List.exists_mem_of_ne_nil targets named
        cases (same target).mpr member
      simp only [Registry.mem_select_iff named, Registry.mem_select_iff mentioned, same]
  · -- the daemon that was left is one that can be reached, and its deeds are the same
    have onward : Reachable (initial setup tree) (daemon.stop targets).1 :=
      .step (.stop targets) reached rfl
    have again := stop_eq (owned_of_reachable onward).isFiled targets
    rw [stop_eq filed targets] at again
    have selected := Registry.select_congr (Registry.deeds_halt daemon.shared.registry
      (daemon.shared.registry.select targets)) targets
    have asked := Registry.halt_of_asked signals.halting
    refine again.trans (Prod.ext ?_ selected)
    simp only [withRegistry]
    rw [selected, asked]

/-- Two machines of one name, of which the older one is running, and a third one that is called by
the identity of the second. -/
def namesakes : List Event :=
  let named (name : String) : Event := .submit { Vm.draft "alpha" "1.2.3" with name }
  [named "web", named "web", named "02020202-0202-0202-0202-020202020202",
    .reserve 0 (drawing 1) 7, .prepare 0, .announce 0, .launch 0 (.ok ⟨100, false⟩),
    .handOver 0 0, .hear 0 "10.0.0.1", .recordAddress 0, .reserve 1 (drawing 2) 9,
    .reserve 2 (drawing 3) 5]

/-- A name, an identity that is a name as well, and the identity of the machine that was named. -/
def mentionedTwice : List String :=
  ["web", "02020202-0202-0202-0202-020202020202", "01010101-0101-0101-0101-010101010101"]

theorem records_namesakes :
    (stocked.run? namesakes).any (fun daemon =>
      (daemon.shared.registry.find? "web").isNone &&
      (daemon.shared.registry.find? "02020202-0202-0202-0202-020202020202").any
        (·.uuid == "02020202-0202-0202-0202-020202020202") &&
      (daemon.shared.registry.find? "01010101-0101-0101-0101-010101010101").any fun first =>
        first.uuid == "01010101-0101-0101-0101-010101010101" && first.name == "web" &&
        first.state == .running &&
        daemon.shared.registry.active.values.all fun other =>
          other.vm.name != "web" || Registry.notYounger first other.vm) = true := by
  decide +kernel

theorem stop_signals_meant_of_namesakes :
    ∃ daemon, Reachable stocked daemon ∧
      (daemon.stop mentionedTwice).2 =
        ["01010101-0101-0101-0101-010101010101", "02020202-0202-0202-0202-020202020202"] ∧
      (∀ entry,
        daemon.shared.registry.active.find? "03030303-0303-0303-0303-030303030303" = some entry →
        (daemon.stop mentionedTwice).1.shared.registry.active.find?
          "03030303-0303-0303-0303-030303030303" = some entry) ∧
      (daemon.stop mentionedTwice).1.stop mentionedTwice = daemon.stop mentionedTwice := by
  obtain ⟨daemon, ran, shows⟩ := (Option.any_eq_true _ _).mp records_namesakes
  simp only [Bool.and_eq_true] at shows
  obtain ⟨⟨unfiled, identified⟩, aged⟩ := shows
  obtain ⟨second, found, same⟩ := (Option.any_eq_true _ _).mp identified
  obtain ⟨first, there, described⟩ := (Option.any_eq_true _ _).mp aged
  simp only [Bool.and_eq_true, beq_iff_eq, List.all_eq_true, Bool.or_eq_true, bne_iff_ne] at described
  obtain ⟨⟨⟨self, named⟩, -⟩, older⟩ := described
  have reached : Reachable stocked daemon := reachable_iff.mpr ⟨_, ran⟩
  have oldest : daemon.shared.registry.Means "web" (some first) := by
    refine .name (Option.isNone_iff_eq_none.mp unfiled) (by rw [self, there]) named ?_
    intro uuid other present alike
    obtain ⟨entry, entered, rfl⟩ := Option.map_eq_some_iff.mp present
    have member := List.mem_map_of_mem (f := Prod.snd) (Keyed.mem_rows_of_find? entered)
    exact (Registry.notYounger_iff _ _).mp ((older entry member).resolve_left (absurd alike))
  obtain ⟨registry, answer, stopped, signals, -, -, answers, -, again⟩ :=
    stop_signals_meant reached mentionedTwice
  obtain ⟨meant, only, rfl⟩ := answers (by decide)
  have row : [some first, some second, some first] = meant :=
    (only _).mp (.cons oldest (.cons (.identity found) (.cons (.identity there) .nil)))
  have answered : (meant.reduceOption.map (·.uuid)).eraseDups =
      ["01010101-0101-0101-0101-010101010101", "02020202-0202-0202-0202-020202020202"] := by
    subst row
    simp only [List.reduceOption_cons_of_some, List.reduceOption_nil, List.map_cons, List.map_nil,
      self, beq_iff_eq.mp same]
    decide
  rw [answered] at stopped signals again
  refine ⟨daemon, reached, ?_, fun entry present => ?_, ?_⟩
  · rw [stopped]
  · rw [stopped]
    exact (signals.spared _ (by decide) entry present).1
  · rw [stopped]
    exact again

end Daemon

end VmFleet
