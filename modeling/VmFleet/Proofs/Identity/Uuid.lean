/-
This file proves what the canonical text of a UUID is good for. Two UUIDs with one
canonical text are the same, so a registry that keeps canonical texts apart keeps the
UUIDs apart; and the text is a proper name, so a directory named by it lies directly
in the directory it was joined to.
-/

import VmFleet.Identity.Mac
import VmFleet.Proofs.Files.Path

namespace VmFleet

open VmFleet.Text

namespace Uuid

theorem canonical_injective {left right : Uuid} (same : left.canonical = right.canonical) :
    left = right := by
  have back := parse?_canonical left
  rw [same, parse?_canonical right] at back
  exact (Option.some.inj back).symm

/-- Putting digits into groups adds hyphens and nothing else. -/
theorem mem_hyphenate {sizes : List Nat} {digits : List Char} {character : Char}
    (member : character ∈ hyphenate sizes digits) : character = '-' ∨ character ∈ digits := by
  induction sizes generalizing digits with
  | nil => exact .inr member
  | cons size sizes inductionHypothesis =>
    cases sizes with
    | nil => exact .inr member
    | cons next sizes =>
      have cut : hyphenate (size :: next :: sizes) digits =
          digits.take size ++ '-' :: hyphenate (next :: sizes) (digits.drop size) := rfl
      rw [cut] at member
      rcases List.mem_append.mp member with early | later
      · exact .inr (List.mem_of_mem_take early)
      · rcases List.mem_cons.mp later with hyphen | later
        · exact .inl hyphen
        · exact (inductionHypothesis later).imp id List.mem_of_mem_drop

/-- Each character of a canonical text is one octet, and none is a slash. -/
theorem encoding_of_mem_canonical (uuid : Uuid) (character : Char)
    (member : character ∈ uuid.canonical.toList) :
    ∃ octet, String.utf8EncodeChar character = [octet] ∧ octet ≠ Path.slash := by
  have digit : ∀ value : Fin 16, ∃ octet,
      String.utf8EncodeChar (hexDigit value.val) = [octet] ∧ octet ≠ Path.slash := by
    intro value
    have single : ∀ value : Fin 16, (String.utf8EncodeChar (hexDigit value.val)).length = 1 ∧
        Path.slash ∉ String.utf8EncodeChar (hexDigit value.val) := by decide
    obtain ⟨one, whole⟩ := single value
    obtain ⟨octet, encoded⟩ := List.length_eq_one_iff.mp one
    refine ⟨octet, encoded, ?_⟩
    rintro rfl
    exact whole (encoded ▸ List.mem_singleton_self _)
  rw [canonical, String.toList_ofList] at member
  rcases mem_hyphenate member with rfl | digits
  · exact ⟨0x2D, by decide, by decide⟩
  · obtain ⟨octet, -, pair⟩ := List.mem_flatMap.mp digits
    have bound : octet.toNat < 256 := octet.toNat_lt
    rw [hexOfOctet, List.mem_cons, List.mem_singleton] at pair
    rcases pair with rfl | rfl
    · exact digit ⟨octet.toNat / 16, by omega⟩
    · exact digit ⟨octet.toNat % 16, by omega⟩

theorem length_toList_canonical (uuid : Uuid) : uuid.canonical.toList.length = 36 := by
  have digits : (hexOfOctets uuid.octets).length = 32 := by
    rw [length_hexOfOctets, uuid.length_eq]
  simp [canonical, groups, hyphenate, digits]

/-- A canonical text is a proper name for a directory. -/
theorem isProper_canonical (uuid : Uuid) : Path.IsProper (octetsOf uuid.canonical) := by
  have encoding := encoding_of_mem_canonical uuid
  have length := length_toList_canonical uuid
  rw [octetsOf_eq]
  revert encoding length
  generalize uuid.canonical.toList = characters
  intro encoding length
  have octets : (characters.flatMap String.utf8EncodeChar).length = 36 := by
    rw [← length, List.length_flatMap, ← Nat.mul_one characters.length, ← List.sum_replicate_nat,
      ← List.map_const']
    refine congrArg List.sum (List.map_congr_left fun character member => ?_)
    obtain ⟨octet, encoded, -⟩ := encoding character member
    rw [encoded, List.length_singleton]
  refine ⟨?_, ?_, ?_, ?_⟩
  · intro empty
    rw [empty] at octets
    cases octets
  · intro member
    obtain ⟨character, present, slashed⟩ := List.mem_flatMap.mp member
    obtain ⟨octet, encoded, different⟩ := encoding character present
    rw [encoded, List.mem_singleton] at slashed
    exact different slashed.symm
  · intro same
    rw [same] at octets
    cases octets
  · intro same
    rw [same] at octets
    cases octets

end Uuid

end VmFleet
