/-
This file proves where a path leads that was joined from a directory and a name. A
name is proper if it names something in a directory and not the directory itself or
the one above, and has no slash that would lead further. Under such a name lies a
direct child of the directory, however the directory was written.
-/

import Mathlib.Data.List.Basic
import VmFleet.Proofs.Text.Utf8
import VmFleet.Files.Path

namespace VmFleet

open VmFleet.Text

namespace Path

/-- A name of something in a directory. -/
structure IsProper (name : FileName) : Prop where
  nonempty : name ≠ []
  whole : slash ∉ name
  ne_here : name ≠ here
  ne_above : name ≠ above

/-- The first path names something directly in the directory of the second. -/
def IsDirectChild (child parent : Path) : Prop :=
  ∃ name, IsProper name ∧ child.names = parent.names ++ [name] ∧
    child.isAbsolute = parent.isAbsolute

theorem pieces_ne_nil (octets : List UInt8) : pieces octets ≠ [] := by
  cases octets with
  | nil => exact nofun
  | cons octet octets =>
    unfold pieces
    split
    · exact nofun
    · split <;> exact nofun

/-- A text without a slash makes a name without one. -/
theorem whole_octetsOf {text : String} (whole : '/' ∉ text.toList) : slash ∉ octetsOf text := by
  intro member
  obtain ⟨character, among, same⟩ := exists_of_mem_octetsOf member (by decide)
  have character_eq : character = '/' := Char.toNat_inj.mp same
  exact whole (character_eq ▸ among)

/-- What stands before a slash and what stands after it are taken apart by themselves. -/
theorem pieces_append_slash (left right : List UInt8) :
    pieces (left ++ slash :: right) = pieces left ++ pieces right := by
  induction left with
  | nil => rfl
  | cons octet left inductionHypothesis =>
    rw [List.cons_append, pieces, pieces, inductionHypothesis]
    split
    · rfl
    · cases first : pieces left with
      | nil => exact absurd first (pieces_ne_nil left)
      | cons piece rest => rfl

theorem pieces_of_whole {name : FileName} (whole : slash ∉ name) : pieces name = [name] := by
  induction name with
  | nil => rfl
  | cons octet name inductionHypothesis =>
    rw [List.mem_cons, not_or] at whole
    rw [pieces, if_neg (Ne.symm whole.1), inductionHypothesis whole.2]

/-- A name without a slash does not lead to the root. -/
theorem isAbsolute_of_whole {name : FileName} (whole : slash ∉ name) :
    (⟨name⟩ : Path).isAbsolute = false := by
  unfold isAbsolute
  cases name with
  | nil => rfl
  | cons octet rest =>
    have different : octet ≠ slash := by
      rintro rfl
      exact whole List.mem_cons_self
    simpa using different

/-- What stands under a name lies directly in the directory the name is joined to. -/
theorem names_join {parent : Path} {name : FileName} (nonempty : name ≠ []) (whole : slash ∉ name) :
    (parent.join ⟨name⟩).names = parent.names ++ [name] := by
  have single : (pieces name).filter (!·.isEmpty) = [name] := by
    rw [pieces_of_whole whole, List.filter_cons_of_pos, List.filter_nil]
    simpa using nonempty
  unfold join
  rw [if_neg (by simp [isAbsolute_of_whole whole])]
  split
  · rename_i bare
    rcases bare with empty | ended
    · have none : parent.octets = [] := by simpa using empty
      simp only [names, none, List.nil_append]
      exact single
    · obtain ⟨front, split⟩ := List.getLast?_eq_some_iff.mp ended
      simp only [names, split]
      rw [List.append_assoc, List.singleton_append, pieces_append_slash, pieces_append_slash,
        List.filter_append, List.filter_append]
      show _ ++ (pieces name).filter (!·.isEmpty) = _
      rw [single, show (pieces []).filter (!·.isEmpty) = [] from rfl, List.append_nil]
  · simp only [names]
    rw [pieces_append_slash, List.filter_append]
    exact congrArg _ single

theorem isAbsolute_join {parent : Path} {name : FileName} (whole : slash ∉ name) :
    (parent.join ⟨name⟩).isAbsolute = parent.isAbsolute := by
  have relative := isAbsolute_of_whole whole
  unfold join
  rw [if_neg (by simp [relative])]
  cases octets : parent.octets with
  | nil =>
    simp only [List.isEmpty_nil, true_or, if_true, List.nil_append]
    exact relative.trans (by simp [isAbsolute, octets])
  | cons octet rest =>
    split <;> simp [isAbsolute, octets]

/-- The octets of a joined path: those of the directory, at most one slash, and the name. -/
theorem octets_join (parent : Path) {name : FileName} (whole : slash ∉ name) :
    (parent.join ⟨name⟩).octets = parent.octets ++ name ∨
      (parent.join ⟨name⟩).octets = parent.octets ++ slash :: name := by
  unfold join
  rw [if_neg (by simp [isAbsolute_of_whole whole])]
  split
  · exact .inl rfl
  · exact .inr rfl

theorem octets_join_ne_nil {parent : Path} {name : FileName} (nonempty : name ≠ [])
    (whole : slash ∉ name) : (parent.join ⟨name⟩).octets ≠ [] := by
  rcases octets_join parent whole with joined | joined <;> rw [joined]
  · exact List.append_ne_nil_of_right_ne_nil _ nonempty
  · exact List.append_ne_nil_of_right_ne_nil _ (List.cons_ne_nil _ _)

/-- A joined path has no slash at its end, so its steps are its names. -/
theorem steps_join {parent : Path} {name : FileName} (nonempty : name ≠ []) (whole : slash ∉ name) :
    (parent.join ⟨name⟩).steps = parent.names ++ [name] := by
  have last : (parent.join ⟨name⟩).octets.getLast? = name.getLast? := by
    rcases octets_join parent whole with octets | octets
    · rw [octets, List.getLast?_append_of_ne_nil _ nonempty]
    · rw [octets, List.getLast?_append_of_ne_nil _ (List.cons_ne_nil _ _),
        List.getLast?_cons_of_ne_nil nonempty]
  have plain : (parent.join ⟨name⟩).asksForDirectory = false := by
    unfold asksForDirectory
    rw [last]
    have different : name.getLast? ≠ some slash := fun ended =>
      whole (List.mem_of_getLast? ended)
    simp [different]
  unfold steps
  rw [plain, names_join nonempty whole]
  exact List.append_nil _

/-- Something with a proper name lies directly in the directory it is joined to. -/
theorem names_child {parent : Path} {text : String} (proper : IsProper (octetsOf text)) :
    (parent.child text).names = parent.names ++ [octetsOf text] :=
  names_join proper.nonempty proper.whole

theorem isAbsolute_child {parent : Path} {text : String} (proper : IsProper (octetsOf text)) :
    (parent.child text).isAbsolute = parent.isAbsolute :=
  isAbsolute_join proper.whole

/-- Joining a proper name gives a direct child. -/
theorem isDirectChild_child {parent : Path} {text : String} (proper : IsProper (octetsOf text)) :
    (parent.child text).IsDirectChild parent :=
  ⟨octetsOf text, proper, names_child proper, isAbsolute_child proper⟩

end Path

end VmFleet
