/-
This file proves that the order in which a tree lists what stands where does not show.
Where no location is taken twice, a location holds what some row says, so trees with the
same rows in another order answer every question about a path in the same way, list the
same names in a directory, and lose the same rows when places are taken away.
-/

import Mathlib.Data.List.Nodup
import VmFleet.Proofs.Files.Resolve

namespace VmFleet.Tree

/-- A tree of files: no location is taken twice, and no name is longer than a name may be. -/
structure IsSound (tree : Tree) : Prop where
  once : (tree.nodes.map Prod.fst).Nodup
  short : ∀ row ∈ tree.nodes, ∀ name ∈ row.1, name.length ≤ nameLimit

instance {tree : Tree} : Decidable tree.IsSound :=
  decidable_of_iff
    ((tree.nodes.map Prod.fst).Nodup ∧ ∀ row ∈ tree.nodes, ∀ name ∈ row.1, name.length ≤ nameLimit)
    ⟨fun ⟨once, short⟩ => ⟨once, short⟩, fun ⟨once, short⟩ => ⟨once, short⟩⟩

variable {tree other : Tree} {places : List Location} {location : Location}

/-! ### Rows -/

/-- What stands at a location is in a row. -/
theorem mem_nodes_of_find? {node : Node} (proper : location ≠ [])
    (found : tree.find? location = some node) : (location, node) ∈ tree.nodes := by
  rw [find?_of_ne_nil proper] at found
  obtain ⟨⟨place, held⟩, row, rfl⟩ := Option.map_eq_some_iff.mp found
  have same : place = location := by simpa using List.find?_some row
  exact same ▸ List.mem_of_find?_eq_some row

/-- A row says what stands at its location. -/
theorem IsSound.find?_of_mem (sound : tree.IsSound) {node : Node} (proper : location ≠ [])
    (member : (location, node) ∈ tree.nodes) : tree.find? location = some node := by
  rw [find?_of_ne_nil proper]
  cases found : tree.nodes.find? (·.1 == location) with
  | none => exact absurd (List.find?_eq_none.mp found _ member) (by simp)
  | some row =>
    have same : row.1 = location := by simpa using List.find?_some found
    have unique := List.inj_on_of_nodup_map sound.once (List.mem_of_find?_eq_some found) member same
    rw [unique]
    rfl

theorem mem_namesAt {name : FileName} :
    name ∈ tree.namesAt location ↔ ∃ node, (name :: location, node) ∈ tree.nodes := by
  unfold namesAt
  rw [List.mem_filterMap]
  constructor
  · rintro ⟨⟨_ | ⟨first, outer⟩, node⟩, member, named⟩
    · cases named
    · simp only [Option.ite_none_right_eq_some, Option.some.injEq] at named
      obtain ⟨rfl, rfl⟩ := named
      exact ⟨node, member⟩
  · rintro ⟨node, member⟩
    exact ⟨_, member, if_pos rfl⟩

/-- A directory lists the names under which something stands in it. -/
theorem mem_namesAt_iff_find? (sound : tree.IsSound) {name : FileName} :
    name ∈ tree.namesAt location ↔ ∃ node, tree.find? (name :: location) = some node := by
  rw [mem_namesAt]
  exact exists_congr fun node => ⟨sound.find?_of_mem (List.cons_ne_nil _ _),
    mem_nodes_of_find? (List.cons_ne_nil _ _)⟩

/-- A directory lists every name once. -/
theorem IsSound.nodup_namesAt (sound : tree.IsSound) : (tree.namesAt location).Nodup := by
  unfold namesAt
  refine (List.pairwise_map.mp sound.once).filterMap _ ?_
  rintro ⟨_ | ⟨left, outer⟩, _⟩ ⟨_ | ⟨right, beyond⟩, _⟩ apart name first name' second
  · cases first
  · cases first
  · cases second
  · simp only [Option.ite_none_right_eq_some, Option.some.injEq] at first second
    rintro rfl
    exact apart (by rw [first.1, first.2, second.1, second.2])

theorem IsSound.length_le (sound : tree.IsSound) {name : FileName} {node : Node}
    (found : tree.find? (name :: location) = some node) : name.length ≤ nameLimit :=
  sound.short _ (mem_nodes_of_find? (List.cons_ne_nil _ _) found) name List.mem_cons_self

/-- A tree of files is one still when places are taken away. -/
theorem IsSound.without (sound : tree.IsSound) (places : List Location) :
    (tree.without places).IsSound := by
  have rows : (tree.without places).nodes.map Prod.fst =
      (tree.nodes.filter (!isUnder places ·.1)).map Prod.fst :=
    List.map_map.trans (List.map_congr_left fun row _ => rfl)
  constructor
  · rw [rows]
    exact (List.filter_sublist.map _).nodup sound.once
  · intro row member
    have place : row.1 ∈ (tree.nodes.filter (!isUnder places ·.1)).map Prod.fst :=
      rows ▸ List.mem_map_of_mem member
    obtain ⟨before, among, same⟩ := List.mem_map.mp place
    exact same ▸ sound.short before (List.mem_of_mem_filter among)

/-! ### The same rows in another order -/

/-- Trees that differ at most in the order of their rows. -/
structure SameRows (tree other : Tree) : Prop where
  now : other.now = tree.now
  held : other.held = tree.held
  nodes : other.nodes.Perm tree.nodes

theorem SameRows.isSound (same : SameRows tree other) (sound : tree.IsSound) : other.IsSound :=
  ⟨(same.nodes.map _).nodup_iff.mpr sound.once,
    fun row member => sound.short row (same.nodes.mem_iff.mp member)⟩

theorem SameRows.find? (same : SameRows tree other) (sound : tree.IsSound) (location : Location) :
    other.find? location = tree.find? location := by
  by_cases proper : location = []
  · subst proper
    rw [find?_nil, find?_nil, same.now]
  · refine Option.ext fun node => ?_
    exact ⟨fun found => sound.find?_of_mem proper
        (same.nodes.mem_iff.mp (mem_nodes_of_find? proper found)),
      fun found => (same.isSound sound).find?_of_mem proper
        (same.nodes.mem_iff.mpr (mem_nodes_of_find? proper found))⟩

theorem SameRows.holdsIn (same : SameRows tree other) (location : Location) :
    other.holdsIn location = tree.holdsIn location := by
  unfold Tree.holdsIn
  rw [same.held]

/-- The names in a directory come in some order. -/
theorem SameRows.namesAt (same : SameRows tree other) :
    (other.namesAt location).Perm (tree.namesAt location) :=
  same.nodes.filterMap _

/-- Without the same places, whatever their order, the trees still have the same rows. -/
theorem SameRows.without (same : SameRows tree other) {others : List Location}
    (taken : ∀ place, place ∈ others ↔ place ∈ places) :
    SameRows (tree.without places) (other.without others) := by
  rw [without_congr taken]
  refine ⟨same.now, same.held, ?_⟩
  unfold Tree.without
  rw [same.now]
  exact (same.nodes.filter _).map _

section Questions

variable (agree : ∀ location, other.find? location = tree.find? location)

include agree

theorem isDirectoryAt_congr (location : Location) :
    other.isDirectoryAt location = tree.isDirectoryAt location := by
  unfold isDirectoryAt
  rw [agree]

theorem walkSteps_congr (last : LastStep)
    (atLink : Location → List FileName → Except Cause Location) (place : Location)
    (steps : List FileName) :
    other.walkSteps last atLink place steps = tree.walkSteps last atLink place steps := by
  induction steps generalizing place with
  | nil => rfl
  | cons step steps inductionHypothesis =>
    unfold walkSteps
    simp only [isDirectoryAt_congr agree, agree, inductionHypothesis]

theorem walk_congr (last : LastStep) (links : Nat) : other.walk last links = tree.walk last links := by
  induction links with
  | zero =>
    funext place steps
    exact walkSteps_congr agree last _ place steps
  | succ links inductionHypothesis =>
    funext place steps
    unfold walk
    rw [inductionHypothesis]
    exact walkSteps_congr agree last _ place steps

/-- Where a path leads depends on what stands where, and on nothing else. -/
theorem resolve_congr (last : LastStep) (place : Location) (path : Path) :
    other.resolve last place path = tree.resolve last place path := by
  unfold resolve
  rw [walk_congr agree]

theorem entry_congr (place : Location) (path : Path) :
    other.entry place path = tree.entry place path := by
  unfold entry
  rw [resolve_congr agree]
  simp only [agree]

theorem isFile_congr (place : Location) (path : Path) :
    other.isFile place path = tree.isFile place path := by
  unfold isFile status
  rw [resolve_congr agree]
  simp only [agree]

end Questions

end VmFleet.Tree
