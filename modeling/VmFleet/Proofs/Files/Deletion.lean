/-
This file proves what it does to take something away. A directory goes entry by entry,
inner ones first. Either everything goes, and then what is left is the tree without the
directory, or the system holds on to something in it: then the directory still stands, and
no more than a part of what lies below it is gone.
-/

import VmFleet.Proofs.Files.Removal
import VmFleet.Proofs.Files.Request

namespace VmFleet

/-- What the system holds on to is not missing. -/
theorem Hold.cause_ne (hold : Hold) : hold.cause ≠ .noEntry := by
  cases hold <;> exact nofun

namespace Tree

/-- It sticks to take away what stands at a location: the system holds on to something there or
below, and what is gone by then lies below. -/
structure Sticks (tree : Tree) (location : Location) (cause : Cause) (left : Tree) : Prop where
  held : ∃ place hold, location <:+ place ∧ tree.heldBy? place = some hold ∧ cause = hold.cause
  part : ∃ gone, (∀ place ∈ gone, location <:+ place ∧ place ≠ location) ∧ left = tree.without gone

variable {tree left : Tree} {location : Location} {cause : Cause}

theorem Sticks.holdsIn (sticks : tree.Sticks location cause left) :
    tree.holdsIn location = true := by
  obtain ⟨⟨place, hold, below, held, -⟩, -⟩ := sticks
  exact holdsIn_of_heldBy? held below

/-- What sticks in an entry of a directory sticks in the directory. -/
theorem Sticks.outer {name : FileName} (sticks : tree.Sticks (name :: location) cause left) :
    tree.Sticks location cause left := by
  obtain ⟨⟨place, hold, below, held⟩, gone, inner, rfl⟩ := sticks
  refine ⟨⟨place, hold, (List.suffix_cons name location).trans below, held⟩, gone,
    fun other member => ?_, rfl⟩
  have under := (inner other member).1
  refine ⟨(List.suffix_cons name location).trans under, ?_⟩
  rintro rfl
  exact absurd under.length_le (Nat.not_succ_le_self _)

/-- It sticks when a part was taken away before. -/
theorem Sticks.of_without {gone : List Location}
    (inner : ∀ place ∈ gone, location <:+ place ∧ place ≠ location)
    (sticks : (tree.without gone).Sticks location cause left) :
    tree.Sticks location cause left := by
  obtain ⟨held, others, further, rfl⟩ := sticks
  refine ⟨held, gone ++ others, fun other member => ?_, without_without⟩
  exact (List.mem_append.mp member).elim (inner other) (further other)

theorem Sticks.cause_ne (sticks : tree.Sticks location cause left) : cause ≠ .noEntry := by
  obtain ⟨⟨-, hold, -, -, rfl⟩, -⟩ := sticks
  exact hold.cause_ne

/-- What sticks still stands. -/
theorem Sticks.isDirectoryAt (sticks : tree.Sticks location cause left) :
    left.isDirectoryAt location = tree.isDirectoryAt location := by
  obtain ⟨-, gone, inner, rfl⟩ := sticks
  refine isDirectoryAt_without (Bool.eq_false_iff.mpr fun under => ?_)
  obtain ⟨place, member, above⟩ := isUnder_iff.mp under
  obtain ⟨below, apart⟩ := inner place member
  exact apart (above.eq_of_length (Nat.le_antisymm above.length_le below.length_le))

/-- No location is deeper than some levels. -/
def IsWithin (tree : Tree) (levels : Nat) : Prop :=
  ∀ row ∈ tree.nodes, row.1.length ≤ levels

theorem isWithin_depth (tree : Tree) : tree.IsWithin tree.depth := by
  intro row member
  unfold depth
  generalize tree.nodes = rows at member
  induction member with
  | head => exact Nat.le_max_left _ _
  | tail _ _ inductionHypothesis => exact Nat.le_trans inductionHypothesis (Nat.le_max_right _ _)

theorem IsWithin.mono {levels more : Nat} (within : tree.IsWithin levels) (le : levels ≤ more) :
    tree.IsWithin more :=
  fun row member => Nat.le_trans (within row member) le

theorem IsWithin.without {levels : Nat} (within : tree.IsWithin levels) (places : List Location) :
    (tree.without places).IsWithin levels := by
  intro row member
  obtain ⟨before, among, rfl⟩ := List.mem_map.mp member
  exact within before (List.mem_of_mem_filter among)

/-- The deepest directories are empty. -/
theorem IsWithin.namesAt_eq_nil (within : tree.IsWithin location.length) :
    tree.namesAt location = [] := by
  refine List.eq_nil_iff_forall_not_mem.mpr fun name member => ?_
  obtain ⟨⟨place, node⟩, among, named⟩ := List.mem_filterMap.mp member
  have short := within _ among
  cases place with
  | nil => cases named
  | cons first outer =>
    simp only [Option.ite_none_right_eq_some] at named
    obtain ⟨rfl, -⟩ := named
    exact absurd short (Nat.not_succ_le_self _)

end Tree

namespace TreeRequest

open VmFleet.Tree

variable {tree : Tree} {location : Location}

theorem run_removeEntry (tree : Tree) (location : Location) :
    (removeEntry location).run tree =
      match tree.heldBy? location with
      | some hold => (.error hold.cause, tree)
      | none => (.ok (), tree.prune location) := by
  unfold removeEntry
  rw [run_bind, run_inspect]
  cases tree.heldBy? location <;> rfl

/-- A request takes away what stands at a location, or it sticks there. -/
def Removes (request : TreeRequest Cause Unit) (tree : Tree) (location : Location) : Prop :=
  request.run tree = (.ok (), tree.prune location) ∨
    ∃ cause left, request.run tree = (.error cause, left) ∧ tree.Sticks location cause left

theorem removes_removeEntry (tree : Tree) (location : Location) :
    Removes (removeEntry location) tree location := by
  unfold Removes
  rw [run_removeEntry]
  cases held : tree.heldBy? location with
  | none => exact .inl rfl
  | some hold =>
    exact .inr ⟨hold.cause, tree, rfl, ⟨location, hold, List.suffix_refl _, held, rfl⟩, [], nofun,
      without_nil.symm⟩

theorem removes_removeEmptied (empty : tree.namesAt location = []) :
    Removes (removeEmptied location) tree location := by
  have run : (removeEmptied location).run tree = (removeEntry location).run tree := by
    unfold removeEmptied
    rw [run_bind, run_inspect, empty]
  unfold Removes
  rw [run]
  exact removes_removeEntry tree location

section Names

variable {request : FileName → TreeRequest Cause Unit} {levels : Nat}
  (each : ∀ name tree, tree.IsWithin levels → Removes (request name) tree (name :: location))

include each

/-- Names in a directory are taken away one after the other, as long as none sticks. -/
theorem run_forM_removes (names : List FileName) (within : tree.IsWithin levels) :
    (names.forM request).run tree = (.ok (), tree.without (names.map (· :: location))) ∨
      ∃ cause left, (names.forM request).run tree = (.error cause, left) ∧
        tree.Sticks location cause left := by
  induction names generalizing tree with
  | nil => exact .inl (congrArg _ without_nil.symm)
  | cons name names inductionHypothesis =>
    have step : (name :: names).forM request = request name >>= fun _ => names.forM request := rfl
    rw [step, run_bind]
    rcases each name tree within with removed | ⟨cause, left, stuck, sticks⟩
    · rw [removed, prune_eq_without]
      rcases inductionHypothesis (within.without [name :: location]) with
        others | ⟨cause, left, stuck, sticks⟩
      · exact .inl (others.trans (congrArg _ without_without))
      · refine .inr ⟨cause, left, stuck, sticks.of_without ?_⟩
        exact List.forall_mem_singleton.mpr ⟨List.suffix_cons _ _, List.cons_ne_self _ _⟩
    · exact .inr ⟨cause, left, by rw [stuck], sticks.outer⟩

/-- A directory is taken away when all its names are. -/
theorem removes_names (within : tree.IsWithin levels) :
    Removes (do (tree.namesAt location).forM request; removeEmptied location) tree location := by
  unfold Removes
  rw [run_bind]
  rcases run_forM_removes each (tree.namesAt location) within with
    emptied | ⟨cause, left, stuck, sticks⟩
  · rw [emptied]
    have inner : ∀ place ∈ (tree.namesAt location).map (· :: location),
        location <:+ place ∧ place ≠ location := by
      intro place member
      obtain ⟨name, -, rfl⟩ := List.mem_map.mp member
      exact ⟨List.suffix_cons _ _, List.cons_ne_self _ _⟩
    have empty : (tree.without ((tree.namesAt location).map (· :: location))).namesAt location =
        [] := by
      rw [namesAt_without, List.filter_eq_nil_iff]
      intro name member
      rw [isUnder_iff.mpr ⟨_, List.mem_map_of_mem member, List.suffix_refl _⟩]
      exact nofun
    rcases removes_removeEmptied empty with removed | ⟨cause, left, stuck, sticks⟩
    · exact .inl (removed.trans (congrArg _ (prune_without_below inner)))
    · exact .inr ⟨cause, left, stuck, sticks.of_without inner⟩
  · exact .inr ⟨cause, left, by rw [stuck], sticks⟩

end Names

/-- Taking away what stands at a location, inner things first, where no location is deeper than
the request goes. -/
theorem removes_removeDown (levels : Nat) (within : tree.IsWithin (location.length + levels)) :
    Removes (removeDown levels location) tree location := by
  induction levels generalizing tree location with
  | zero => exact removes_removeEmptied within.namesAt_eq_nil
  | succ levels inductionHypothesis =>
    unfold Removes
    rw [removeDown, run_bind, run_inspect]
    refine removes_names (fun name tree within => inductionHypothesis (within.mono ?_)) within
    rw [List.length_cons]
    omega

/-! ### What a path leads to -/

/-- To take a file away is refused and changes nothing, or takes away just what stands there,
which is no directory. -/
theorem run_removeFile (place : Location) (path : Path) (tree : Tree) :
    (removeFile place path).run tree =
      match tree.resolve ⟨false, false⟩ place path with
      | .error cause => (.error cause, tree)
      | .ok location =>
        match tree.find? location with
        | none => (.error .noEntry, tree)
        | some (.directory _) => (.error .isDirectory, tree)
        | some _ => (removeEntry location).run tree := by
  unfold removeFile
  rw [run_bind, run_inspect]
  cases tree.resolve ⟨false, false⟩ place path with
  | error cause => rfl
  | ok location =>
    simp only
    rw [run_bind, run_inspect]
    rcases tree.find? location with _ | (_ | _ | _ | _) <;> rfl

/-- To take away whatever a path leads to is refused at once, or goes down from there. -/
theorem run_removeAll (place : Location) (path : Path) (tree : Tree) :
    (removeAll place path).run tree =
      match tree.resolve ⟨false, false⟩ place path with
      | .error cause => (.error cause, tree)
      | .ok location =>
        match tree.find? location with
        | none => (.error .noEntry, tree)
        | some (.directory _) => (removeDown tree.depth location).run tree
        | some (.link _) => (removeEntry location).run tree
        | some _ => (.error .notDirectory, tree) := by
  unfold removeAll
  rw [run_bind, run_inspect]
  cases tree.resolve ⟨false, false⟩ place path with
  | error cause => rfl
  | ok location =>
    simp only
    rw [run_bind, run_inspect]
    rcases tree.find? location with _ | (_ | _ | _ | _)
    case directory =>
      simp only
      rw [run_bind, run_inspect]
    all_goals rfl

section Path

variable {place : Location} {path : Path}

/-- Taking away what a path does not lead to is refused and changes nothing. -/
theorem run_removeAll_of_error {cause : Cause}
    (leads : tree.resolve ⟨false, false⟩ place path = .error cause) :
    (removeAll place path).run tree = (.error cause, tree) := by
  rw [run_removeAll, leads]

/-- Taking away the directory that a path leads to. -/
theorem removes_removeAll {modified : Timestamp}
    (leads : tree.resolve ⟨false, false⟩ place path = .ok location)
    (found : tree.find? location = some (.directory modified)) :
    Removes (removeAll place path) tree location := by
  unfold Removes
  rw [run_removeAll, leads]
  simp only
  rw [found]
  exact removes_removeDown tree.depth ((isWithin_depth tree).mono (Nat.le_add_left _ _))

/-- What a path leads to is taken away, or it stays as it is, or it is a directory and it sticks to
take it away. -/
theorem run_removeAll_cases (leads : tree.resolve ⟨false, false⟩ place path = .ok location)
    (found : tree.find? location ≠ none) :
    (removeAll place path).run tree = (.ok (), tree.prune location) ∨
      ∃ cause left, (removeAll place path).run tree = (.error cause, left) ∧ cause ≠ .noEntry ∧
        (left = tree ∨ tree.isDirectoryAt location = true ∧ tree.Sticks location cause left) := by
  rcases stands : tree.find? location with _ | (_ | _ | _ | _)
  case none => exact absurd stands found
  case directory =>
    rcases removes_removeAll leads stands with removed | ⟨cause, left, stuck, sticks⟩
    · exact .inl removed
    · have inside : tree.isDirectoryAt location = true := by
        unfold isDirectoryAt
        rw [stands]
      exact .inr ⟨cause, left, stuck, sticks.cause_ne, .inr ⟨inside, sticks⟩⟩
  case link =>
    rw [run_removeAll, leads]
    simp only
    rw [stands]
    simp only
    rw [run_removeEntry]
    cases tree.heldBy? location with
    | none => exact .inl rfl
    | some hold => exact .inr ⟨hold.cause, tree, rfl, hold.cause_ne, .inl rfl⟩
  all_goals
    refine .inr ⟨.notDirectory, tree, ?_, nofun, .inl rfl⟩
    rw [run_removeAll, leads]
    simp only
    rw [stands]

end Path

end TreeRequest

end VmFleet
