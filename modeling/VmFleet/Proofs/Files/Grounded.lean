/-
This file proves what is true of every place that a path leads to. Everything above it is a
directory, so a step up leads to a directory again, and a file has a name of its own in the
directory it stands in. In a tree as a system keeps it something stands at the place; it is no
link if links are followed.
-/

import VmFleet.Proofs.Files.Enumeration
import VmFleet.Proofs.Files.Joined

namespace VmFleet

/-- A name under which a file can stand in a directory. -/
structure Path.IsPossible (name : FileName) : Prop where
  proper : Path.IsProper name
  clear : 0 ∉ name
  short : name.length ≤ Tree.nameLimit

instance (name : FileName) : Decidable (Path.IsProper name) :=
  decidable_of_iff (name ≠ [] ∧ Path.slash ∉ name ∧ name ≠ Path.here ∧ name ≠ Path.above)
    ⟨fun ⟨nonempty, whole, notHere, notAbove⟩ => ⟨nonempty, whole, notHere, notAbove⟩,
      fun ⟨nonempty, whole, notHere, notAbove⟩ => ⟨nonempty, whole, notHere, notAbove⟩⟩

instance (name : FileName) : Decidable (Path.IsPossible name) :=
  decidable_of_iff (Path.IsProper name ∧ 0 ∉ name ∧ name.length ≤ Tree.nameLimit)
    ⟨fun ⟨proper, clear, short⟩ => ⟨proper, clear, short⟩,
      fun ⟨proper, clear, short⟩ => ⟨proper, clear, short⟩⟩

namespace Path

/-- A path that is not empty and does not start at the root has a step. -/
theorem steps_ne_nil {path : Path} (nonempty : path.octets ≠ [])
    (relative : path.isAbsolute = false) : path.steps ≠ [] := by
  obtain ⟨octet, octets, same⟩ := List.exists_cons_of_ne_nil nonempty
  have different : octet ≠ slash := by
    rintro rfl
    unfold isAbsolute at relative
    rw [same] at relative
    cases relative
  have names : path.names ≠ [] := by
    unfold names
    rw [same, pieces, if_neg different]
    split <;> simp
  unfold steps
  simp [names]

end Path

namespace Tree

variable {tree : Tree} {place location : Location}

/-! ### Steps up -/

/-- Everything above a place is a directory. -/
def IsGrounded (tree : Tree) (place : Location) : Prop :=
  ∀ above, above <:+ place → above ≠ place → tree.isDirectoryAt above = true

theorem isGrounded_nil (tree : Tree) : tree.IsGrounded [] :=
  fun _ suffix proper => absurd (List.suffix_nil.mp suffix) proper

theorem IsGrounded.tail (grounded : tree.IsGrounded place) : tree.IsGrounded place.tail := by
  cases place with
  | nil => exact grounded
  | cons name place =>
    intro above suffix proper
    refine grounded above (suffix.trans (List.suffix_cons name place)) ?_
    rintro rfl
    exact absurd suffix.length_le (Nat.not_succ_le_self _)

theorem IsGrounded.isDirectoryAt_tail (grounded : tree.IsGrounded place) :
    tree.isDirectoryAt place.tail = true := by
  cases place with
  | nil => rfl
  | cons name place => exact grounded place (List.suffix_cons name place) (List.cons_ne_self _ _).symm

theorem IsGrounded.cons (grounded : tree.IsGrounded place)
    (directory : tree.isDirectoryAt place = true) (name : FileName) :
    tree.IsGrounded (name :: place) := by
  intro above suffix proper
  rcases List.suffix_cons_iff.mp suffix with same | inside
  · exact absurd same proper
  · by_cases same : above = place
    · rw [same]
      exact directory
    · exact grounded above inside same

theorem IsGrounded.startOf (grounded : tree.IsGrounded place) (path : Path) :
    tree.IsGrounded (startOf path place) := by
  unfold Tree.startOf
  split
  · exact isGrounded_nil tree
  · exact grounded

/-- Where steps lead, everything above is a directory. -/
theorem Leads.isGrounded {last : LastStep} {links : Nat} {steps : List FileName}
    (leads : tree.Leads last links place steps location) (grounded : tree.IsGrounded place) :
    tree.IsGrounded location := by
  induction leads with
  | done => exact grounded
  | here _ _ inductionHypothesis => exact inductionHypothesis grounded
  | above _ _ inductionHypothesis => exact inductionHypothesis grounded.tail
  | enter down _ _ inductionHypothesis =>
    exact inductionHypothesis (grounded.cons down.directory _)
  | follow _ _ _ _ inductionHypothesis => exact inductionHypothesis (grounded.startOf _)
  | look down | free down => exact grounded.cons down.directory _

/-- A last step that stays or goes up leads to a directory. -/
theorem Leads.isDirectoryAt {last : LastStep} {links : Nat} {name : FileName}
    (leads : tree.Leads last links place [name] location) (grounded : tree.IsGrounded place)
    (stays : name = Path.here ∨ name = Path.above) : tree.isDirectoryAt location = true := by
  have astray : ¬tree.Descends place name :=
    fun down => stays.elim down.ne_here down.ne_above
  cases leads with
  | here directory onward =>
    cases onward
    exact directory
  | above directory onward =>
    cases onward
    exact grounded.isDirectoryAt_tail
  | enter down | follow down | look down | free down => exact absurd down astray

/-- A file in a directory has a name of its own there. -/
theorem isProper_of_isFile {directory : Path} {name : FileName} (nonempty : name ≠ [])
    (whole : Path.slash ∉ name) (file : tree.isFile [] (directory.join ⟨name⟩) = true) :
    Path.IsProper name := by
  obtain ⟨location, content, leads, found⟩ := isFile_iff.mp file
  have notDirectory : tree.isDirectoryAt location ≠ true := by
    unfold isDirectoryAt
    rw [found]
    exact nofun
  rcases resolve_join tree ⟨true, false⟩ [] nonempty whole (accepts_of_resolve leads) with
    ⟨cause, -, failed⟩ | ⟨inner, links, reached, goesOn⟩
  · cases failed.symm.trans leads
  · have start : startOf directory [] = [] := by
      unfold startOf
      split <;> rfl
    have grounded : tree.IsGrounded inner := by
      unfold namesLead at reached
      rw [start] at reached
      exact (walk_eq_ok_iff.mp reached).isGrounded (isGrounded_nil tree)
    have onward := walk_eq_ok_iff.mp (goesOn.symm.trans leads)
    refine ⟨nonempty, whole, fun stays => ?_, fun up => ?_⟩
    · exact notDirectory (onward.isDirectoryAt grounded (.inl stays))
    · exact notDirectory (onward.isDirectoryAt grounded (.inr up))

/-- One step under a proper name is as long as a name may be. -/
theorem Leads.length_le {last : LastStep} {links : Nat} {name : FileName}
    (leads : tree.Leads last links place [name] location) (proper : Path.IsProper name) :
    name.length ≤ nameLimit := by
  cases leads with
  | here => exact absurd rfl proper.ne_here
  | above => exact absurd rfl proper.ne_above
  | enter down | follow down | look down | free down => exact down.short

/-- A file in a directory has a name under which a file can stand. -/
theorem isPossible_of_isFile {directory : Path} {name : FileName} (nonempty : name ≠ [])
    (whole : Path.slash ∉ name)
    (file : tree.isFile [] (directory.join ⟨name⟩) = true) : Path.IsPossible name := by
  have proper := isProper_of_isFile nonempty whole file
  obtain ⟨location, content, leads, -⟩ := isFile_iff.mp file
  have accepted := accepts_of_resolve leads
  refine ⟨proper, fun member => accepted.1 ?_, ?_⟩
  · rcases Path.octets_join directory whole with joined | joined <;>
    · rw [joined]
      simp [member]
  · rcases resolve_join tree ⟨true, false⟩ [] nonempty whole accepted with
      ⟨cause, -, failed⟩ | ⟨inner, links, -, goesOn⟩
    · cases failed.symm.trans leads
    · exact (walk_eq_ok_iff.mp (goesOn.symm.trans leads)).length_le proper

/-! ### Trees as a system keeps them -/

/-- Whatever there is stands in a directory, under names under which a file can stand. -/
structure IsKept (tree : Tree) : Prop where
  possible : ∀ row ∈ tree.nodes, ∀ name ∈ row.1, Path.IsPossible name
  inside : ∀ row ∈ tree.nodes, tree.isDirectoryAt row.1.tail = true

instance : Decidable tree.IsKept :=
  decidable_of_iff
    ((∀ row ∈ tree.nodes, ∀ name ∈ row.1, Path.IsPossible name) ∧
      ∀ row ∈ tree.nodes, tree.isDirectoryAt row.1.tail = true)
    ⟨fun ⟨possible, inside⟩ => ⟨possible, inside⟩, fun ⟨possible, inside⟩ => ⟨possible, inside⟩⟩

section Kept

variable (kept : tree.IsKept)

include kept

theorem IsKept.isDirectoryAt_tail {node : Node} (found : tree.find? location = some node) :
    tree.isDirectoryAt location.tail = true := by
  by_cases root : location = []
  · rw [root]
    rfl
  · exact kept.inside _ (mem_nodes_of_find? root found)

/-- Everything above a location where something stands is a directory. -/
theorem IsKept.isGrounded {node : Node} (found : tree.find? location = some node) :
    tree.IsGrounded location := by
  induction location generalizing node with
  | nil => exact isGrounded_nil tree
  | cons name location inductionHypothesis =>
    have directory := kept.isDirectoryAt_tail found
    obtain ⟨outer, standing, -⟩ := hasEnd_of_isDirectoryAt directory
    exact (inductionHypothesis standing).cons directory name

/-- Where something stands every name is one under which a file can stand. -/
theorem IsKept.isPossible {node : Node} (found : tree.find? location = some node)
    {name : FileName} (member : name ∈ location) : Path.IsPossible name :=
  kept.possible _ (mem_nodes_of_find? (List.ne_nil_of_mem member) found) name member

/-- Where steps lead that follow links something stands that is no link. -/
theorem IsKept.hasEnd_of_leads {links : Nat} {steps : List FileName}
    (leads : tree.Leads ⟨true, false⟩ links place steps location) (starts : tree.HasEnd place) :
    tree.HasEnd location := by
  induction leads with
  | done => exact starts
  | here _ _ inductionHypothesis => exact inductionHypothesis starts
  | above _ _ inductionHypothesis =>
    obtain ⟨node, found, -⟩ := starts
    exact inductionHypothesis (hasEnd_of_isDirectoryAt (kept.isDirectoryAt_tail found))
  | enter _ stands _ inductionHypothesis => exact inductionHypothesis stands
  | follow _ _ _ _ inductionHypothesis => exact inductionHypothesis (starts.startOf _)
  | look _ _ looked => cases looked
  | free _ _ absent => cases absent

/-- Where a path leads something stands that is no link. -/
theorem IsKept.hasEnd_of_resolve {path : Path}
    (leads : tree.resolve ⟨true, false⟩ place path = .ok location) : tree.HasEnd location := by
  obtain ⟨⟨-, nonempty, -⟩, leads⟩ := resolve_eq_ok_iff.mp leads
  refine kept.hasEnd_of_leads leads (hasEnd_of_isDirectoryAt ?_)
  unfold startOf at leads ⊢
  split
  · rfl
  · rename_i relative
    rw [if_neg relative] at leads
    -- a relative path has a first step, and that needs a directory to stand in
    have first := Path.steps_ne_nil nonempty (by simpa using relative)
    generalize path.steps = steps at leads first
    cases leads with
    | done => exact absurd rfl first
    | here directory | above directory => exact directory
    | enter down | follow down | look down | free down => exact down.directory

end Kept

end Tree

end VmFleet
