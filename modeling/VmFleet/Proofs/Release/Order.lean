/-
This file proves that versions are in a strict total order. Each comparison of
identifiers is one by keys, with words after numbers; rows of identifiers and whole
versions are compared by the first key that differs. So two versions neither of which
is earlier are the same one, and sorting gives the same row in whatever order the
versions were met.
-/

import Mathlib.Order.Compare
import VmFleet.Release.Version

namespace VmFleet.Version

open Std

/-! ### Comparisons by keys -/

/-- Comparing by a key of what is compared. -/
theorem transCmp_on {α β : Type} (order : β → β → Ordering) [TransCmp order] (key : α → β) :
    TransCmp fun left right => order (key left) (key right) where
  eq_swap := OrientedCmp.eq_swap
  isLE_trans := TransCmp.isLE_trans

theorem compareText_eq : compareText = List.compareLex (compareOn Char.toNat) := by
  funext left right
  induction left generalizing right with
  | nil => cases right <;> rfl
  | cons character left inductionHypothesis =>
    cases right with
    | nil => rfl
    | cons other right =>
      rw [compareText, List.compareLex_cons_cons, inductionHypothesis]
      rfl

instance : TransCmp compareText := by
  rw [compareText_eq]
  infer_instance

theorem eq_of_compareText {left right : List Char} (same : compareText left right = .eq) :
    left = right := by
  induction left generalizing right with
  | nil => cases right <;> first | rfl | cases same
  | cons character left inductionHypothesis =>
    cases right with
    | nil => cases same
    | cons other right =>
      obtain ⟨first, rest⟩ := Ordering.then_eq_eq.mp same
      rw [Char.toNat_inj.mp (LawfulEqCmp.eq_of_compare first), inductionHypothesis rest]

/-- How long the digits of an identifier are; a word has none. -/
def digitCount (identifier : List Char) : Nat :=
  if isNumeric identifier then identifier.length else 0

/-- An identifier without the zeros in front of a number. -/
def withoutPadding (identifier : List Char) : List Char :=
  if isNumeric identifier then identifier.dropWhile (· == '0') else identifier

theorem isNumeric_dropWhile {identifier : List Char} (numeric : isNumeric identifier = true) :
    isNumeric (identifier.dropWhile (· == '0')) = true := by
  unfold isNumeric at numeric ⊢
  rw [List.all_eq_true] at numeric ⊢
  exact fun character member => numeric character (List.dropWhile_subset _ member)

/-- Numbers come before words. -/
def isWord (identifier : List Char) : Bool :=
  !isNumeric identifier

theorem comparePrerelease_eq :
    comparePrerelease = compareLex (compareOn isWord)
      (compareLex (compareOn digitCount) compareText) := by
  funext left right
  unfold comparePrerelease compareLex compareOn
  cases first : isNumeric left <;> cases second : isNumeric right
  all_goals simp [isWord, digitCount, first, second, compareDigits]
  all_goals rfl

theorem compareBuild_eq :
    compareBuild = compareLex (compareOn isWord)
      (compareLex (compareOn fun identifier => digitCount (withoutPadding identifier))
        (compareLex (fun left right => compareText (withoutPadding left) (withoutPadding right))
          (compareOn digitCount))) := by
  funext left right
  unfold compareBuild compareLex compareOn
  cases first : isNumeric left <;> cases second : isNumeric right
  all_goals simp [isWord, withoutPadding, digitCount, first, second, isNumeric_dropWhile,
    compareDigits, Ordering.then_assoc]
  all_goals rfl

theorem compareRows_eq (order : List Char → List Char → Ordering) :
    compareRows order = List.compareLex order := by
  funext left right
  induction left generalizing right with
  | nil => cases right <;> rfl
  | cons row left inductionHypothesis =>
    cases right with
    | nil => rfl
    | cons other right =>
      rw [compareRows, List.compareLex_cons_cons, inductionHypothesis]

theorem comparePrereleases_eq :
    comparePrereleases = compareLex (compareOn List.isEmpty) (compareRows comparePrerelease) := by
  funext left right
  cases left <;> cases right <;> rfl

theorem order_eq :
    order = compareLex (compareOn major) (compareLex (compareOn minor) (compareLex (compareOn patch)
      (compareLex (fun left right => comparePrereleases left.prerelease right.prerelease)
        fun left right => compareRows compareBuild left.build right.build))) := rfl

instance : TransCmp comparePrerelease := by
  rw [comparePrerelease_eq]
  infer_instance

instance : TransCmp compareBuild := by
  have := transCmp_on compareText withoutPadding
  rw [compareBuild_eq]
  infer_instance

instance : TransCmp comparePrereleases := by
  rw [comparePrereleases_eq, compareRows_eq]
  infer_instance

instance : TransCmp order := by
  have prereleases := transCmp_on comparePrereleases prerelease
  have builds := transCmp_on (List.compareLex compareBuild) build
  rw [order_eq, compareRows_eq]
  infer_instance

/-! ### Versions that are not told apart -/

theorem eq_of_comparePrerelease {left right : List Char} (same : comparePrerelease left right = .eq) :
    left = right := by
  rw [comparePrerelease_eq] at same
  obtain ⟨-, rest⟩ := Ordering.then_eq_eq.mp same
  exact eq_of_compareText (Ordering.then_eq_eq.mp rest).2

/-- Without its padding a number is what follows its zeros, so padding and digits give it back. -/
theorem eq_of_dropWhile_eq {left right : List Char}
    (digits : left.dropWhile (· == '0') = right.dropWhile (· == '0'))
    (length : left.length = right.length) : left = right := by
  have zeros : ∀ text : List Char, text.takeWhile (· == '0') =
      List.replicate (text.length - (text.dropWhile (· == '0')).length) '0' := by
    intro text
    refine List.eq_replicate_iff.mpr ⟨?_, fun character member => ?_⟩
    · have whole := congrArg List.length (text.takeWhile_append_dropWhile (p := (· == '0')))
      rw [List.length_append] at whole
      omega
    · exact eq_of_beq (List.all_eq_true.mp List.all_takeWhile character member)
  rw [← left.takeWhile_append_dropWhile (p := (· == '0')),
    ← right.takeWhile_append_dropWhile (p := (· == '0')), zeros left, zeros right, digits, length]

theorem eq_of_compareBuild {left right : List Char} (same : compareBuild left right = .eq) :
    left = right := by
  rw [compareBuild_eq] at same
  obtain ⟨words, rest⟩ := Ordering.then_eq_eq.mp same
  obtain ⟨-, rest⟩ := Ordering.then_eq_eq.mp rest
  obtain ⟨digits, counts⟩ := Ordering.then_eq_eq.mp rest
  have words : isWord left = isWord right := LawfulEqCmp.eq_of_compare words
  have digits := eq_of_compareText digits
  have counts : digitCount left = digitCount right := LawfulEqCmp.eq_of_compare counts
  unfold isWord at words
  unfold withoutPadding at digits
  unfold digitCount at counts
  cases numeric : isNumeric right <;> simp [numeric] at words <;>
    simp [words, numeric] at digits counts
  · exact digits
  · exact eq_of_dropWhile_eq digits counts

theorem eq_of_compareRows {order : List Char → List Char → Ordering}
    (tells : ∀ left right, order left right = .eq → left = right) {left right : List (List Char)}
    (same : compareRows order left right = .eq) : left = right := by
  induction left generalizing right with
  | nil => cases right <;> first | rfl | cases same
  | cons row left inductionHypothesis =>
    cases right with
    | nil => cases same
    | cons other right =>
      obtain ⟨first, rest⟩ := Ordering.then_eq_eq.mp same
      rw [tells row other first, inductionHypothesis rest]

/-- Two versions neither of which is earlier are the same. -/
theorem eq_of_order {left right : Version} (same : order left right = .eq) : left = right := by
  obtain ⟨majors, rest⟩ := Ordering.then_eq_eq.mp same
  obtain ⟨minors, rest⟩ := Ordering.then_eq_eq.mp rest
  obtain ⟨patches, rest⟩ := Ordering.then_eq_eq.mp rest
  obtain ⟨prereleases, builds⟩ := Ordering.then_eq_eq.mp rest
  rw [comparePrereleases_eq] at prereleases
  have majors := LawfulEqCmp.eq_of_compare majors
  have minors := LawfulEqCmp.eq_of_compare minors
  have patches := LawfulEqCmp.eq_of_compare patches
  have prereleases := eq_of_compareRows (fun _ _ => eq_of_comparePrerelease)
    (Ordering.then_eq_eq.mp prereleases).2
  have builds := eq_of_compareRows (fun _ _ => eq_of_compareBuild) builds
  cases left
  cases right
  simp_all

/-! ### Sorting -/

theorem notAfter_trans (first second third : Version) (left : notAfter first second = true)
    (right : notAfter second third = true) : notAfter first third = true := by
  simp only [notAfter, bne_iff_ne] at left right ⊢
  exact TransCmp.le_trans left right

theorem order_swap (left right : Version) : order right left = (order left right).swap :=
  OrientedCmp.eq_swap

theorem notAfter_total (left right : Version) :
    (notAfter left right || notAfter right left) = true := by
  unfold notAfter
  rw [order_swap left right]
  cases order left right <;> rfl

@[simp]
theorem ascending_nil : ascending [] = [] := List.mergeSort_nil

/-- Sorted versions are in ascending order, if none is there twice. -/
theorem pairwise_ascending {versions : List Version} (once : versions.Nodup) :
    (ascending versions).Pairwise fun earlier later => order earlier later = .lt := by
  have sorted := List.pairwise_mergeSort notAfter_trans notAfter_total versions
  have apart : (ascending versions).Nodup :=
    (List.mergeSort_perm versions notAfter).nodup_iff.mpr once
  refine (sorted.and apart).imp fun {earlier later} both => ?_
  have notLater : order earlier later ≠ .gt := by simpa [notAfter] using both.1
  cases compared : order earlier later with
  | lt => rfl
  | eq => exact absurd (eq_of_order compared) both.2
  | gt => exact absurd compared notLater

theorem mem_ascending {versions : List Version} {version : Version} :
    version ∈ ascending versions ↔ version ∈ versions :=
  (List.mergeSort_perm versions notAfter).mem_iff

/-- Two sorted rows of the same versions are the same. -/
theorem eq_of_perm_of_sorted {versions others : List Version} (same : versions.Perm others)
    (sorted : versions.Pairwise (notAfter · · = true))
    (sorted' : others.Pairwise (notAfter · · = true)) : versions = others := by
  refine List.Perm.eq_of_pairwise ?_ sorted sorted' same
  intro left right _ _ before after
  simp only [notAfter, bne_iff_ne] at before after
  rw [order_swap left right] at after
  cases compared : order left right with
  | lt => simp [compared] at after
  | eq => exact eq_of_order compared
  | gt => exact absurd compared before

/-- In whatever order versions are met, they are sorted to the same row. -/
theorem ascending_eq_of_perm {versions others : List Version} (same : versions.Perm others) :
    ascending versions = ascending others :=
  eq_of_perm_of_sorted
    (((List.mergeSort_perm versions notAfter).trans same).trans
      (List.mergeSort_perm others notAfter).symm)
    (List.pairwise_mergeSort notAfter_trans notAfter_total _)
    (List.pairwise_mergeSort notAfter_trans notAfter_total _)

/-- Versions are sorted to the row of the same versions that is sorted already. -/
theorem ascending_eq_of_sorted {versions others : List Version} (same : versions.Perm others)
    (sorted : others.Pairwise (notAfter · · = true)) : ascending versions = others :=
  eq_of_perm_of_sorted ((List.mergeSort_perm versions notAfter).trans same)
    (List.pairwise_mergeSort notAfter_trans notAfter_total _) sorted

/-- Of sorted versions some are left in their order. -/
theorem ascending_filter (stays : Version → Bool) (versions : List Version) :
    ascending (versions.filter stays) = (ascending versions).filter stays :=
  eq_of_perm_of_sorted
    ((List.mergeSort_perm _ notAfter).trans ((List.mergeSort_perm versions notAfter).filter _).symm)
    (List.pairwise_mergeSort notAfter_trans notAfter_total _)
    ((List.pairwise_mergeSort notAfter_trans notAfter_total versions).filter _)

end VmFleet.Version
