/-
This file ties the octets of a text to its characters: they are the octets of the
characters in their order, so texts with the same octets are the same text.
-/

import VmFleet.Text.Utf8

namespace VmFleet.Text

/-- Reading an array of octets out from some place on. -/
theorem toList_loop (bytes : ByteArray) (index : Nat) (read : List UInt8) :
    ByteArray.toList.loop bytes index read = read.reverse ++ bytes.data.toList.drop index := by
  fun_induction ByteArray.toList.loop bytes index read with
  | case1 index read inside inductionHypothesis =>
    have bound : index < bytes.data.toList.length := by
      rw [Array.length_toList]
      exact inside
    have next : bytes.get! index = bytes.data.toList[index] := by
      show bytes.data[index]! = _
      rw [getElem!_pos bytes.data index (by rwa [Array.length_toList] at bound),
        Array.getElem_toList]
    rw [inductionHypothesis, List.drop_eq_getElem_cons bound, next, List.reverse_cons,
      List.append_assoc, List.singleton_append]
  | case2 index read outside =>
    have empty : bytes.data.toList.drop index = [] := by
      refine List.drop_eq_nil_of_le ?_
      rw [Array.length_toList]
      exact Nat.le_of_not_lt outside
    rw [empty, List.append_nil]

theorem toList_eq_data (bytes : ByteArray) : bytes.toList = bytes.data.toList :=
  toList_loop bytes 0 []

/-- The octets of a text are those of its characters. -/
theorem octetsOf_eq (text : String) :
    octetsOf text = text.toList.flatMap String.utf8EncodeChar := by
  unfold octetsOf
  rw [String.toUTF8_eq_toByteArray, toList_eq_data]
  conv =>
    lhs
    rw [← String.ofList_toList (s := text), String.toByteArray_ofList]
  exact List.toList_data_toByteArray

/-- Every octet below 128 is a character by itself. -/
theorem toNat_of_mem_utf8EncodeChar {octet : UInt8} {character : Char}
    (member : octet ∈ String.utf8EncodeChar character) (small : octet.toNat < 128) :
    character.toNat = octet.toNat := by
  unfold String.utf8EncodeChar at member
  dsimp only at member
  split at member
  · rename_i single
    rw [List.mem_singleton.mp member, UInt8.toNat_ofNat_of_lt' (Nat.lt_of_le_of_lt single (by decide))]
    rfl
  -- the octets of longer characters are 128 or above
  split at member
  · simp only [List.mem_cons, List.not_mem_nil, or_false] at member
    rcases member with rfl | rfl <;> rw [UInt8.toNat_ofNat'] at small <;> omega
  split at member
  · simp only [List.mem_cons, List.not_mem_nil, or_false] at member
    rcases member with rfl | rfl | rfl <;> rw [UInt8.toNat_ofNat'] at small <;> omega
  · simp only [List.mem_cons, List.not_mem_nil, or_false] at member
    rcases member with rfl | rfl | rfl | rfl <;> rw [UInt8.toNat_ofNat'] at small <;> omega

/-- An octet below 128 stands for a character of the text. -/
theorem exists_of_mem_octetsOf {octet : UInt8} {text : String} (member : octet ∈ octetsOf text)
    (small : octet.toNat < 128) : ∃ character ∈ text.toList, character.toNat = octet.toNat := by
  rw [octetsOf_eq] at member
  obtain ⟨character, among, inside⟩ := List.mem_flatMap.mp member
  exact ⟨character, among, toNat_of_mem_utf8EncodeChar inside small⟩

/-- Texts with the same octets are the same. -/
theorem octetsOf_injective {left right : String} (same : octetsOf left = octetsOf right) :
    left = right := by
  unfold octetsOf at same
  rw [String.toUTF8_eq_toByteArray, String.toUTF8_eq_toByteArray, toList_eq_data, toList_eq_data]
    at same
  exact String.toByteArray_inj.mp (ByteArray.ext (Array.toList_inj.mp same))

end VmFleet.Text
