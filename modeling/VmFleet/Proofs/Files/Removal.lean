/-
This file proves what is left when whole places are taken out of a tree. Nothing stands
at such a place or below it, and everywhere else stands what stood there, except that a
directory which lost something directly in it was changed now. Places can be taken out
one after the other, in any order, or again: the tree that is left is the same. What the
system holds on to is the same in every tree that is left.
-/

import VmFleet.Files.Change

namespace VmFleet.Tree

/-! ### The tree that is left -/

/-- Whether a location is one of the places or lies below one. -/
def isUnder (places : List Location) (location : Location) : Bool :=
  places.any (·.isSuffixOf location)

/-- What stands at a location once the places are gone: a directory that held one of them
was changed. -/
def stamped (now : Timestamp) (places : List Location) (location : Location) : Node → Node
  | .directory modified => .directory (if location ∈ places.map List.tail then now else modified)
  | node => node

/-- A row of a tree with its stamp. -/
def stampedRow (now : Timestamp) (places : List Location) (row : Location × Node) :
    Location × Node :=
  (row.1, stamped now places row.1 row.2)

/-- The tree without the places and whatever lies below them. -/
def without (tree : Tree) (places : List Location) : Tree :=
  { tree with
    nodes := (tree.nodes.filter (!isUnder places ·.1)).map (stampedRow tree.now places) }

section Under

variable {places others : List Location} {location : Location}

theorem isUnder_iff : isUnder places location = true ↔ ∃ place ∈ places, place <:+ location := by
  simp [isUnder]

theorem isUnder_append : isUnder (places ++ others) location =
    (isUnder places location || isUnder others location) :=
  List.any_append

/-- What lies below a place that is not gone may be gone, but not the other way round. -/
theorem not_isUnder_tail (kept : isUnder places location = false) :
    isUnder places location.tail = false := by
  rw [Bool.eq_false_iff] at kept ⊢
  intro above
  obtain ⟨place, member, below⟩ := isUnder_iff.mp above
  exact kept (isUnder_iff.mpr ⟨place, member, below.trans (List.tail_suffix location)⟩)

theorem not_isUnder_nil (proper : [] ∉ places) : isUnder places [] = false := by
  rw [Bool.eq_false_iff]
  intro above
  obtain ⟨place, member, below⟩ := isUnder_iff.mp above
  exact proper (List.suffix_nil.mp below ▸ member)

theorem not_isUnder_of_subset (subset : places ⊆ others) (kept : isUnder others location = false) :
    isUnder places location = false := by
  rw [Bool.eq_false_iff] at kept ⊢
  intro above
  obtain ⟨place, member, below⟩ := isUnder_iff.mp above
  exact kept (isUnder_iff.mpr ⟨place, subset member, below⟩)

end Under

variable {tree : Tree} {places others : List Location}

@[simp]
theorem stampedRow_fst (now : Timestamp) (row : Location × Node) :
    (stampedRow now places row).1 = row.1 := rfl

@[simp]
theorem now_without : (tree.without places).now = tree.now := rfl

@[simp]
theorem without_nil : tree.without [] = tree := by
  have stamps : stampedRow tree.now [] = id := by
    funext ⟨location, node⟩
    cases node <;> rfl
  have rows : tree.nodes.filter (!isUnder [] ·.1) = tree.nodes :=
    List.filter_eq_self.mpr fun row _ => rfl
  unfold without
  rw [stamps, rows, List.map_id]

/-- Two stamps in a row are one. -/
theorem stamped_stamped (now : Timestamp) (location : Location) (node : Node) :
    stamped now others location (stamped now places location node) =
      stamped now (places ++ others) location node := by
  cases node with
  | directory modified =>
    simp only [stamped, List.map_append, List.mem_append]
    by_cases second : location ∈ others.map List.tail
    · simp only [second, or_true, if_true]
    · simp only [second, or_false, if_false]
  | _ => rfl

/-- Taking out some places and then others takes out all of them. -/
theorem without_without : (tree.without places).without others = tree.without (places ++ others) := by
  have stamps : stampedRow tree.now others ∘ stampedRow tree.now places =
      stampedRow tree.now (places ++ others) := by
    funext row
    exact congrArg (row.1, ·) (stamped_stamped _ _ _)
  unfold without
  rw [List.filter_map, List.filter_filter, List.map_map, stamps]
  refine congrArg (Tree.mk · tree.now tree.held) (congrArg _ (List.filter_congr fun row _ => ?_))
  simp [isUnder_append, Bool.and_comm]

/-- Only which places are taken out counts. -/
theorem without_congr (same : ∀ place, place ∈ places ↔ place ∈ others) :
    tree.without places = tree.without others := by
  have under : isUnder places = isUnder others := by
    funext location
    rw [Bool.eq_iff_iff, isUnder_iff, isUnder_iff]
    simp only [same]
  have stamp : stampedRow tree.now places = stampedRow tree.now others := by
    funext row
    simp only [stampedRow, stamped, List.mem_map, same]
  unfold without
  rw [under, stamp]

/-- Where some of the places are gone already, the others are left to be taken out. -/
theorem without_of_subset (subset : places ⊆ others) :
    tree.without others = (tree.without places).without others := by
  rw [without_without]
  refine without_congr fun place => ?_
  rw [List.mem_append]
  exact ⟨.inr, fun member => member.elim (@subset place) id⟩

/-- Taking away one more location. -/
theorem prune_without (location : Location) :
    (tree.without places).prune location = tree.without (places ++ [location]) := by
  rw [← without_without]
  generalize tree.without places = tree
  have rows : tree.nodes.filter (fun row => !location.isSuffixOf row.1) =
      tree.nodes.filter (!isUnder [location] ·.1) :=
    List.filter_congr fun row _ => by simp [isUnder]
  unfold prune stamp without
  refine congrArg (Tree.mk · tree.now tree.held) ((List.map_congr_left fun row _ => ?_).trans
    (congrArg (List.map _) rows))
  obtain ⟨place, node⟩ := row
  cases node with
  | directory modified =>
    simp only [stampedRow, stamped, List.map_cons, List.map_nil, List.mem_singleton]
    split <;> rfl
  | _ => rfl

/-- Taking one location away. -/
theorem prune_eq_without (tree : Tree) (location : Location) :
    tree.prune location = tree.without [location] := by
  have pruned : (tree.without []).prune location = tree.without [location] := prune_without _
  rwa [without_nil] at pruned

/-- Taking away a location takes away whatever lies below it, gone or not. -/
theorem prune_without_below {location : Location}
    (below : ∀ place ∈ places, location <:+ place ∧ place ≠ location) :
    (tree.without places).prune location = tree.prune location := by
  have inner : ∀ place ∈ places, location <:+ place.tail := by
    intro place member
    obtain ⟨under, apart⟩ := below place member
    cases place with
    | nil => exact absurd (List.suffix_nil.mp under).symm apart
    | cons name outer => exact (List.suffix_cons_iff.mp under).resolve_left (Ne.symm apart)
  have rows : tree.nodes.filter (!isUnder (places ++ [location]) ·.1) =
      tree.nodes.filter (!isUnder [location] ·.1) := by
    refine List.filter_congr fun row _ => congrArg (!·) ?_
    rw [isUnder_append, Bool.eq_iff_iff, Bool.or_eq_true]
    refine ⟨fun under => under.elim (fun inside => ?_) id, .inr⟩
    obtain ⟨place, member, above⟩ := isUnder_iff.mp inside
    exact isUnder_iff.mpr ⟨location, List.mem_singleton_self _, (below place member).1.trans above⟩
  rw [prune_without, prune_eq_without]
  refine congrArg (Tree.mk · tree.now tree.held) ?_
  rw [rows]
  -- a row that is left lies outside of the location, so it held none of the places
  refine List.map_congr_left fun row kept => ?_
  have outside : isUnder [location] row.1 = false := by simpa using (List.mem_filter.mp kept).2
  have unchanged : row.1 ∉ places.map List.tail := by
    intro stamped
    obtain ⟨place, member, same⟩ := List.mem_map.mp stamped
    rw [isUnder_iff.mpr ⟨location, List.mem_singleton_self _, same ▸ inner place member⟩] at outside
    cases outside
  have stamps : row.1 ∈ (places ++ [location]).map List.tail ↔ row.1 ∈ [location].map List.tail := by
    rw [List.map_append, List.mem_append]
    exact or_iff_right unchanged
  unfold stampedRow stamped
  simp only [stamps]

/-! ### What is held -/

@[simp]
theorem heldBy?_without (location : Location) :
    (tree.without places).heldBy? location = tree.heldBy? location := rfl

@[simp]
theorem holdsIn_without (location : Location) :
    (tree.without places).holdsIn location = tree.holdsIn location := rfl

theorem holdsIn_of_heldBy? {location place : Location} {hold : Hold}
    (held : tree.heldBy? place = some hold) (below : location <:+ place) :
    tree.holdsIn location = true := by
  obtain ⟨row, found, -⟩ := Option.map_eq_some_iff.mp held
  obtain rfl : row.1 = place := by simpa using List.find?_some found
  exact List.any_eq_true.mpr ⟨row, List.mem_of_find?_eq_some found, List.isSuffixOf_iff_suffix.mpr below⟩

/-- The system holds on to nothing at all. -/
theorem holdsIn_of_nil (none : tree.held = []) (location : Location) :
    tree.holdsIn location = false := by
  unfold holdsIn
  rw [none, List.any_nil]

/-! ### What stands where -/

theorem find?_nil (tree : Tree) : tree.find? [] = some (.directory tree.now) := rfl

theorem find?_of_ne_nil {location : Location} (proper : location ≠ []) :
    tree.find? location = (tree.nodes.find? (·.1 == location)).map (·.2) := by
  unfold find?
  rw [if_neg (by simpa using proper)]

/-- Nothing stands at a place that was taken out, or below one. -/
theorem find?_without_of_isUnder (tree : Tree) {location : Location} (proper : location ≠ [])
    (gone : isUnder places location = true) : (tree.without places).find? location = none := by
  rw [find?_of_ne_nil proper, Option.map_eq_none_iff, List.find?_eq_none]
  rintro row member
  obtain ⟨⟨place, node⟩, kept, rfl⟩ := List.mem_map.mp member
  have stays := (List.mem_filter.mp kept).2
  simp only [Bool.not_eq_true', beq_iff_eq, stampedRow_fst] at stays ⊢
  rintro rfl
  rw [gone] at stays
  cases stays

/-- Everywhere else stands what stood there. -/
theorem find?_without {location : Location} (kept : isUnder places location = false) :
    (tree.without places).find? location =
      (tree.find? location).map (stamped tree.now places location) := by
  cases location with
  | nil =>
    rw [find?_nil, find?_nil]
    simp [stamped]
  | cons name outer =>
    rw [find?_of_ne_nil (List.cons_ne_nil _ _), find?_of_ne_nil (List.cons_ne_nil _ _)]
    unfold without
    generalize tree.nodes = rows
    induction rows with
    | nil => rfl
    | cons row rows inductionHypothesis =>
      obtain ⟨place, node⟩ := row
      by_cases gone : isUnder places place = true
      · have elsewhere : place ≠ name :: outer := by
          rintro rfl
          rw [kept] at gone
          cases gone
        rw [List.filter_cons_of_neg (by simpa using gone), inductionHypothesis,
          List.find?_cons_of_neg (by simpa using elsewhere)]
      · rw [List.filter_cons_of_pos (by simpa using gone), List.map_cons]
        by_cases here : place = name :: outer
        · subst here
          rw [List.find?_cons_of_pos (by simp), List.find?_cons_of_pos (by simp)]
          rfl
        · rw [List.find?_cons_of_neg (by simpa using here), inductionHypothesis,
            List.find?_cons_of_neg (by simpa using here)]

/-- A file that is not gone is there as it was, and no other thing becomes one. -/
theorem find?_without_eq_file {location : Location} {content : List UInt8}
    (kept : isUnder places location = false) :
    (tree.without places).find? location = some (.file content) ↔
      tree.find? location = some (.file content) := by
  rw [find?_without kept]
  rcases tree.find? location with _ | (_ | _ | _ | _) <;> simp [stamped]

/-- A directory that is not gone still is one. -/
theorem isDirectoryAt_without {location : Location} (kept : isUnder places location = false) :
    (tree.without places).isDirectoryAt location = tree.isDirectoryAt location := by
  unfold isDirectoryAt
  rw [find?_without kept]
  rcases tree.find? location with _ | (_ | _ | _ | _) <;> rfl

/-- The names in a directory, without those of places that are gone. -/
theorem namesAt_without {location : Location} :
    (tree.without places).namesAt location =
      (tree.namesAt location).filter fun name => !isUnder places (name :: location) := by
  unfold namesAt without
  generalize tree.nodes = rows
  induction rows with
  | nil => rfl
  | cons row rows inductionHypothesis =>
    obtain ⟨place, node⟩ := row
    by_cases gone : isUnder places place = true
    · rw [List.filter_cons_of_neg (by simpa using gone), inductionHypothesis, List.filterMap_cons]
      rcases place with _ | ⟨name, outer⟩
      · rfl
      · by_cases here : outer = location
        · subst here
          simp [gone]
        · simp [here]
    · rw [List.filter_cons_of_pos (by simpa using gone), List.map_cons, List.filterMap_cons,
        inductionHypothesis, List.filterMap_cons]
      rcases place with _ | ⟨name, outer⟩
      · rfl
      · by_cases here : outer = location
        · subst here
          simp [stampedRow, gone]
        · simp [stampedRow, here]

end VmFleet.Tree
