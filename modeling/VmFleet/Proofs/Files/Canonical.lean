/-
This file proves what the path of a location is like. Its steps are the names of the location, so
in a tree as a system keeps it the path leads back from everywhere, through no link. Names are
octets and need be no text. A text writes the path just if it writes every name; then what it
writes is settled, and otherwise no text writes a settled path there.
-/

import VmFleet.Proofs.Files.Grounded
import VmFleet.Proofs.Text.Decode

namespace VmFleet

open VmFleet.Text

/-! ### Paths of text -/

namespace Path

/-- A path that a text writes. -/
def IsText (path : Path) : Prop :=
  ∃ text, path = ofString text

theorem octetsOf_append (left right : String) :
    octetsOf (left ++ right) = octetsOf left ++ octetsOf right := by
  rw [octetsOf_eq, octetsOf_eq, octetsOf_eq, String.toList_append, List.flatMap_append]

/-- A path of text shows as the text that writes it. -/
theorem IsText.ofString_display {path : Path} (isText : path.IsText) :
    ofString path.display = path := by
  obtain ⟨text, rfl⟩ := isText
  exact congrArg ofString (decodeLossy_octetsOf text)

theorem isText_append {left right : List UInt8} (first : (⟨left⟩ : Path).IsText)
    (second : (⟨right⟩ : Path).IsText) : (⟨left ++ right⟩ : Path).IsText := by
  obtain ⟨text, same⟩ := first
  obtain ⟨further, same'⟩ := second
  obtain rfl : left = octetsOf text := congrArg Path.octets same
  obtain rfl : right = octetsOf further := congrArg Path.octets same'
  exact ⟨text ++ further, congrArg Path.mk (octetsOf_append text further).symm⟩

theorem isText_slash : (⟨[slash]⟩ : Path).IsText :=
  ⟨"/", by decide +kernel⟩

theorem IsText.join {left right : Path} (first : left.IsText) (second : right.IsText) :
    (left.join right).IsText := by
  unfold Path.join
  split
  · exact second
  split
  · exact isText_append first second
  · exact isText_append first (isText_append isText_slash second)

theorem IsText.child {path : Path} (isText : path.IsText) (text : String) :
    (path.child text).IsText :=
  isText.join ⟨text, rfl⟩

/-! ### Names of texts -/

/-- Octets without a slash belong to the first piece of what follows. -/
theorem pieces_append_of_whole {left : List UInt8} (whole : slash ∉ left) (right : List UInt8) :
    ∃ first rest, pieces right = first :: rest ∧ pieces (left ++ right) = (left ++ first) :: rest := by
  obtain ⟨first, rest, split⟩ := List.exists_cons_of_ne_nil (pieces_ne_nil right)
  refine ⟨first, rest, split, ?_⟩
  induction left with
  | nil => exact split
  | cons octet left inductionHypothesis =>
    rw [List.mem_cons, not_or] at whole
    rw [List.cons_append, pieces, if_neg (Ne.symm whole.1), inductionHypothesis whole.2]
    rfl

/-- A character is a slash, or none of its octets is one. -/
theorem slash_not_mem_utf8EncodeChar {character : Char} (different : character ≠ '/') :
    slash ∉ String.utf8EncodeChar character := fun member =>
  different (Char.toNat_inj.mp (toNat_of_mem_utf8EncodeChar member (by decide)))

theorem isText_of_mem_pieces (characters : List Char) :
    ∀ piece ∈ pieces (characters.flatMap String.utf8EncodeChar), (⟨piece⟩ : Path).IsText := by
  induction characters with
  | nil =>
    refine List.forall_mem_singleton.mpr ⟨"", ?_⟩
    decide +kernel
  | cons character characters inductionHypothesis =>
    rw [List.flatMap_cons]
    by_cases same : character = '/'
    · have separates : String.utf8EncodeChar '/' = [slash] := by decide +kernel
      rw [same, separates, List.singleton_append, pieces, if_pos rfl]
      exact List.forall_mem_cons.mpr ⟨⟨"", by decide +kernel⟩, inductionHypothesis⟩
    · obtain ⟨first, rest, split, joined⟩ := pieces_append_of_whole
        (slash_not_mem_utf8EncodeChar same) (characters.flatMap String.utf8EncodeChar)
      rw [split] at inductionHypothesis
      obtain ⟨firstText, restTexts⟩ := List.forall_mem_cons.mp inductionHypothesis
      have written : (⟨String.utf8EncodeChar character⟩ : Path).IsText := by
        refine ⟨String.singleton character, congrArg Path.mk ?_⟩
        rw [octetsOf_eq]
        simp
      rw [joined]
      exact List.forall_mem_cons.mpr ⟨isText_append written firstText, restTexts⟩

/-- The names of a path that a text writes are written by texts. -/
theorem IsText.of_mem_names {path : Path} (isText : path.IsText) {name : FileName}
    (member : name ∈ path.names) : (⟨name⟩ : Path).IsText := by
  obtain ⟨text, rfl⟩ := isText
  have among := (List.mem_filter.mp member).1
  refine isText_of_mem_pieces text.toList name ?_
  rwa [← octetsOf_eq]

end Path

/-! ### Paths of locations -/

namespace Tree

variable {tree : Tree} {location place : Location} {path : Path}

theorem intersperse_append_singleton {α : Type} {items : List α} (nonempty : items ≠ [])
    (separator item : α) :
    (items ++ [item]).intersperse separator = items.intersperse separator ++ [separator, item] := by
  induction items with
  | nil => exact absurd rfl nonempty
  | cons first items inductionHypothesis =>
    cases items with
    | nil => rfl
    | cons second items =>
      have longer := inductionHypothesis (List.cons_ne_nil _ _)
      simpa using longer

theorem octets_pathOf_singleton (name : FileName) :
    (pathOf [name]).octets = Path.slash :: name := by
  simp [pathOf, Path.ofParts]

/-- The octets of the path of a location end with those of the innermost name. -/
theorem octets_pathOf_cons (nonempty : location ≠ []) (name : FileName) :
    (pathOf (name :: location)).octets = (pathOf location).octets ++ Path.slash :: name := by
  unfold pathOf Path.ofParts
  rw [List.reverse_cons, intersperse_append_singleton (List.reverse_ne_nil_iff.mpr nonempty)]
  simp

theorem isAbsolute_pathOf (location : Location) : (pathOf location).isAbsolute = true :=
  rfl

section Proper

variable (proper : ∀ name ∈ location, Path.IsProper name)

/-- The path of a place in a directory does not end in a slash. -/
theorem getLast?_pathOf_ne {name : FileName} (own : Path.IsProper name) :
    (pathOf (name :: location)).octets.getLast? ≠ some Path.slash := by
  have last : (pathOf (name :: location)).octets.getLast? = name.getLast? := by
    by_cases root : location = []
    · rw [root, octets_pathOf_singleton, List.getLast?_cons_of_ne_nil own.nonempty]
    · rw [octets_pathOf_cons root, List.getLast?_append_of_ne_nil _ (List.cons_ne_nil _ _),
        List.getLast?_cons_of_ne_nil own.nonempty]
  rw [last]
  exact fun ended => own.whole (List.mem_of_getLast? ended)

include proper

/-- The path of a place in a directory is the name joined to the path of the directory. -/
theorem pathOf_cons {name : FileName} (own : Path.IsProper name) :
    pathOf (name :: location) = (pathOf location).join ⟨name⟩ := by
  have relative := Path.isAbsolute_of_whole own.whole
  have joins : (pathOf location).join ⟨name⟩ =
      if (pathOf location).octets.getLast? = some Path.slash then
        ⟨(pathOf location).octets ++ name⟩
      else ⟨(pathOf location).octets ++ Path.slash :: name⟩ := by
    unfold Path.join
    rw [if_neg (by simp [relative])]
    exact if_congr (or_iff_right (by exact nofun)) rfl rfl
  rw [joins]
  cases location with
  | nil => exact congrArg Path.mk (octets_pathOf_singleton name)
  | cons inner outer =>
    rw [if_neg (getLast?_pathOf_ne (proper inner List.mem_cons_self))]
    exact congrArg Path.mk (octets_pathOf_cons (List.cons_ne_nil _ _) name)

/-- The names of the path of a location are those of the location from the root on. -/
theorem names_pathOf : (pathOf location).names = location.reverse := by
  induction location with
  | nil => rfl
  | cons name location inductionHypothesis =>
    obtain ⟨own, outer⟩ := List.forall_mem_cons.mp proper
    rw [pathOf_cons outer own, Path.names_join own.nonempty own.whole, inductionHypothesis outer,
      List.reverse_cons]

/-- The path of a location takes no step but those. -/
theorem steps_pathOf : (pathOf location).steps = location.reverse := by
  cases location with
  | nil => rfl
  | cons name location =>
    obtain ⟨own, outer⟩ := List.forall_mem_cons.mp proper
    rw [pathOf_cons outer own, Path.steps_join own.nonempty own.whole, names_pathOf outer,
      List.reverse_cons]

/-- A text writes the path of a location exactly if every name is one that a text writes. -/
theorem isText_pathOf_iff :
    (pathOf location).IsText ↔ ∀ name ∈ location, (⟨name⟩ : Path).IsText := by
  constructor
  · refine fun isText name member => isText.of_mem_names ?_
    rwa [names_pathOf proper, List.mem_reverse]
  · intro texts
    induction location with
    | nil => exact Path.isText_slash
    | cons name location inductionHypothesis =>
      obtain ⟨own, outer⟩ := List.forall_mem_cons.mp proper
      obtain ⟨written, outerTexts⟩ := List.forall_mem_cons.mp texts
      rw [pathOf_cons outer own]
      exact (inductionHypothesis outer outerTexts).join written

end Proper

/-- The path of a location has no octet that its names have not, but for slashes. -/
theorem zero_not_mem_pathOf (clear : ∀ name ∈ location, (0 : UInt8) ∉ name) :
    0 ∉ (pathOf location).octets := by
  induction location with
  | nil => decide
  | cons name location inductionHypothesis =>
    obtain ⟨own, outer⟩ := List.forall_mem_cons.mp clear
    have apart : (0 : UInt8) ≠ Path.slash := by decide
    by_cases root : location = []
    · rw [root, octets_pathOf_singleton]
      simp [own, apart]
    · rw [octets_pathOf_cons root]
      simp [own, apart, inductionHypothesis outer]

/-! ### Settled paths -/

/-- A path leads from everywhere to a location, straight: it is absolute, each of its steps is a
name of something in a directory, and no link stands on its way. -/
structure IsSettled (tree : Tree) (path : Path) (location : Location) : Prop where
  absolute : path.isAbsolute = true
  proper : ∀ step ∈ path.steps, Path.IsProper step
  linkFree : ∀ front, front <+: path.steps → ∀ target, tree.find? front.reverse ≠ some (.link target)
  leads : ∀ place, tree.resolve ⟨true, false⟩ place path = .ok location

/-- Steps under the names of a location lead down to it if there is a directory for each. -/
theorem leads_of_hasEnd {last : LastStep} {links : Nat}
    (possible : ∀ name ∈ location, Path.IsPossible name) (grounded : tree.IsGrounded location)
    (ends : tree.HasEnd location) {steps : List FileName}
    (rest : steps.reverse ++ place = location) : tree.Leads last links place steps location := by
  induction steps generalizing place with
  | nil =>
    obtain rfl : place = location := rest
    exact .done
  | cons step steps inductionHypothesis =>
    have split : steps.reverse ++ step :: place = location := by simpa using rest
    have below : step :: place <:+ location := ⟨_, split⟩
    have directory : tree.isDirectoryAt place = true := by
      refine grounded place ((List.suffix_cons _ _).trans below) ?_
      rintro rfl
      exact absurd below.length_le (Nat.not_succ_le_self _)
    -- what stands at the step is the end itself, or a directory above it
    have stands : tree.HasEnd (step :: place) := by
      by_cases same : step :: place = location
      · exact same ▸ ends
      · exact hasEnd_of_isDirectoryAt (grounded _ below same)
    have own := possible step (split ▸ List.mem_append_right _ List.mem_cons_self)
    exact .enter ⟨directory, own.proper.ne_here, own.proper.ne_above, own.short⟩ stands
      (inductionHypothesis split)

/-- Steps under proper names that meet no link lead down to their names. -/
theorem Leads.eq_of_linkFree {links : Nat} {steps : List FileName}
    (leads : tree.Leads ⟨true, false⟩ links place steps location)
    (proper : ∀ step ∈ steps, Path.IsProper step)
    (free : ∀ front, front <+: steps → ∀ target,
      tree.find? (front.reverse ++ place) ≠ some (.link target)) :
    location = steps.reverse ++ place := by
  induction leads with
  | done => rfl
  | here => exact absurd rfl (proper _ List.mem_cons_self).ne_here
  | above => exact absurd rfl (proper _ List.mem_cons_self).ne_above
  | @enter links place step steps location down stands onward inductionHypothesis =>
    have further := (List.forall_mem_cons.mp proper).2
    rw [inductionHypothesis further fun front inside => ?_]
    · simp
    · have longer := free (step :: front) (List.cons_prefix_cons.mpr ⟨rfl, inside⟩)
      simpa using longer
  | @follow links place step steps target location down link =>
    exact absurd link (free [step] (by simp) target)
  | look _ _ looked => cases looked
  | free _ _ absent => cases absent

/-- A settled path has the names of the location from the root on. -/
theorem IsSettled.steps_eq (settled : tree.IsSettled path location) :
    path.steps = location.reverse := by
  obtain ⟨-, leads⟩ := resolve_eq_ok_iff.mp (settled.leads [])
  have start : startOf path [] = [] := by
    unfold startOf
    split <;> rfl
  rw [start] at leads
  have same := leads.eq_of_linkFree settled.proper
    fun front inside => by simpa using settled.linkFree front inside
  rw [same]
  simp

section Kept

variable (kept : tree.IsKept)

include kept

/-- The path of a location leads there, if it is not too long. -/
theorem IsKept.isSettled_pathOf (ends : tree.HasEnd location)
    (short : (pathOf location).octets.length ≤ pathLimit) :
    tree.IsSettled (pathOf location) location := by
  obtain ⟨node, found, notLink⟩ := id ends
  have grounded := kept.isGrounded found
  have possible : ∀ name ∈ location, Path.IsPossible name :=
    fun name member => kept.isPossible found member
  have steps := steps_pathOf fun name member => (possible name member).proper
  refine ⟨isAbsolute_pathOf location, ?_, ?_, fun place => ?_⟩
  · intro step member
    rw [steps, List.mem_reverse] at member
    exact (possible step member).proper
  · intro front inside target link
    rw [steps] at inside
    have above : front.reverse <:+ location := by
      simpa using List.reverse_suffix.mpr inside
    by_cases same : front.reverse = location
    · rw [same, found] at link
      exact notLink target (Option.some.inj link)
    · have directory := grounded _ above same
      unfold isDirectoryAt at directory
      rw [link] at directory
      cases directory
  · have accepted : Accepts (pathOf location) :=
      ⟨zero_not_mem_pathOf fun name member => (possible name member).clear, nofun, short⟩
    refine resolve_eq_ok_iff.mpr ⟨accepted, leads_of_hasEnd possible grounded ends ?_⟩
    unfold startOf
    simp [isAbsolute_pathOf, steps]

/-- The path that is made of a path leads where that one leads, and is made of itself. -/
theorem IsKept.canonical_eq_ok {settled : Path} (made : tree.canonical place path = .ok settled) :
    ∃ location, tree.resolve ⟨true, false⟩ place path = .ok location ∧
      settled = pathOf location ∧ tree.IsSettled settled location ∧
      ∀ other, tree.canonical other settled = .ok settled := by
  unfold canonical at made
  cases leads : tree.resolve ⟨true, false⟩ place path with
  | error cause =>
    rw [leads] at made
    cases made
  | ok location =>
    rw [leads] at made
    simp only [bind, Except.bind] at made
    split at made
    · cases made
    rename_i short
    obtain rfl := Except.ok.inj made
    have straight := kept.isSettled_pathOf (kept.hasEnd_of_resolve leads) (Nat.not_lt.mp short)
    refine ⟨location, rfl, rfl, straight, fun other => ?_⟩
    unfold canonical
    rw [straight.leads other]
    exact if_neg short

end Kept

end Tree

end VmFleet
