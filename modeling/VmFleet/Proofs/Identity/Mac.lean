/-
This file proves that a hardware address depends on the value of a UUID and on nothing
else: not on the form and the letter case in which it was spelled. An address is told
from its six groups, which cutting at the colons finds again, so two addresses are the
same exactly if their octets are. The marking of the first octet loses two of its bits
and no other, so two UUIDs share an address exactly if their first six octets differ in
these two bits at most.
-/

import VmFleet.Proofs.Identity.Spelling
import VmFleet.Registry.Identity
import VmFleet.Text.Split

namespace VmFleet

namespace Text

/-! ### Cutting what was joined -/

theorem splitOn_of_not_mem {separator : Char} {text : List Char} (free : separator ∉ text) :
    splitOn separator text = [text] := by
  induction text with
  | nil => rfl
  | cons character text inductionHypothesis =>
    obtain ⟨different, rest⟩ := List.ne_and_not_mem_of_not_mem_cons free
    rw [splitOn, if_neg different.symm, inductionHypothesis rest]

theorem splitOn_append_separator {separator : Char} {text : List Char} (free : separator ∉ text)
    (rest : List Char) :
    splitOn separator (text ++ separator :: rest) = text :: splitOn separator rest := by
  induction text with
  | nil => rw [List.nil_append, splitOn, if_pos rfl]
  | cons character text inductionHypothesis =>
    obtain ⟨different, others⟩ := List.ne_and_not_mem_of_not_mem_cons free
    rw [List.cons_append, splitOn, if_neg different.symm, inductionHypothesis others]

/-- Parts that were joined by a separator are found again. -/
theorem splitOn_flatten_intersperse {separator : Char} {parts : List (List Char)}
    (nonempty : parts ≠ []) (free : ∀ part ∈ parts, separator ∉ part) :
    splitOn separator (parts.intersperse [separator]).flatten = parts := by
  induction parts with
  | nil => exact absurd rfl nonempty
  | cons part parts inductionHypothesis =>
    have here := free part List.mem_cons_self
    cases parts with
    | nil =>
      rw [List.intersperse_singleton, List.flatten_singleton]
      exact splitOn_of_not_mem here
    | cons next parts =>
      rw [List.intersperse_cons_cons, List.flatten_cons, List.flatten_cons, List.singleton_append,
        splitOn_append_separator here, inductionHypothesis nofun fun other member =>
          free other (List.mem_cons_of_mem _ member)]

/-- The digits in which numbers are written. -/
def lowercaseDigits : List Char := "0123456789abcdef".toList

theorem mem_lowercaseDigits_of_mem {character : Char} {octet : UInt8}
    (member : character ∈ hexOfOctet octet) : character ∈ lowercaseDigits := by
  have digit : ∀ value : Fin 16, hexDigit value.val ∈ lowercaseDigits := by decide +kernel
  have bound : octet.toNat < 256 := octet.toNat_lt
  rw [hexOfOctet, List.mem_cons, List.mem_singleton] at member
  rcases member with rfl | rfl
  · exact digit ⟨octet.toNat / 16, by omega⟩
  · exact digit ⟨octet.toNat % 16, by omega⟩

end Text

open VmFleet.Text

/-- The octet at a place of a UUID. -/
def Uuid.octet (uuid : Uuid) (place : Fin 16) : UInt8 :=
  uuid.octets.get ⟨place.val, by rw [uuid.length_eq]; exact place.isLt⟩

/-- The UUID that identifies nothing is all zeros. -/
theorem Uuid.isNil_iff (uuid : Uuid) : uuid.isNil = true ↔ uuid.octets = List.replicate 16 0 := by
  unfold isNil
  rw [List.all_eq_true, List.eq_replicate_iff]
  simp [uuid.length_eq]

namespace Mac

/-! ### The first octet -/

/-- What holds of every value of an octet holds of the octet. -/
theorem of_octet (property : UInt8 → Prop)
    (holds : ∀ value : Fin 256, property (UInt8.ofNat value.val)) (octet : UInt8) :
    property octet := by
  have here := holds ⟨octet.toNat, octet.toNat_lt⟩
  rwa [UInt8.ofNat_toNat] at here

/-- The marks stand in two bits, and the other six are kept. -/
theorem localUnicast_marks (octet : UInt8) :
    localUnicast octet &&& 2 = 2 ∧ localUnicast octet &&& 1 = 0 ∧
      localUnicast octet &&& 0xFC = octet &&& 0xFC ∧
      localUnicast octet = octet &&& 0xFC ||| 2 :=
  of_octet (fun octet => localUnicast octet &&& 2 = 2 ∧ localUnicast octet &&& 1 = 0 ∧
    localUnicast octet &&& 0xFC = octet &&& 0xFC ∧ localUnicast octet = octet &&& 0xFC ||| 2)
    (by decide +kernel) octet

theorem localUnicast_eq_iff (left right : UInt8) :
    localUnicast left = localUnicast right ↔ left &&& 0xFC = right &&& 0xFC := by
  obtain ⟨-, -, keptLeft, leftMarked⟩ := localUnicast_marks left
  obtain ⟨-, -, keptRight, rightMarked⟩ := localUnicast_marks right
  constructor
  · intro same
    rw [← keptLeft, same, keptRight]
  · intro same
    rw [leftMarked, same, rightMarked]

/-! ### The groups -/

/-- The groups of an address are the digits of its octets. -/
theorem splitOn_text {octets : List UInt8} (nonempty : octets ≠ []) :
    splitOn ':' (text octets).toList = octets.map hexOfOctet := by
  rw [text, String.toList_ofList]
  refine splitOn_flatten_intersperse (by simpa using nonempty) fun group member colon => ?_
  obtain ⟨octet, -, rfl⟩ := List.mem_map.mp member
  exact absurd (mem_lowercaseDigits_of_mem colon) (by decide +kernel)

theorem octetsOfHex?_splitOn_text {octets : List UInt8} (nonempty : octets ≠ []) :
    octetsOfHex? (splitOn ':' (text octets).toList).flatten = some octets := by
  rw [splitOn_text nonempty, ← List.flatMap_def]
  exact octetsOfHex?_hexOfOctets octets

theorem text_eq_iff {left right : List UInt8} (nonemptyLeft : left ≠ [])
    (nonemptyRight : right ≠ []) : text left = text right ↔ left = right := by
  refine ⟨fun same => ?_, congrArg text⟩
  have back := octetsOfHex?_splitOn_text nonemptyLeft
  rw [same, octetsOfHex?_splitOn_text nonemptyRight] at back
  exact (Option.some.inj back).symm

/-- An address has six groups of two small digits. Its first octet is marked as locally
administered and as addressed to one station. -/
structure IsLocalUnicast (mac : String) : Prop where
  groups : (splitOn ':' mac.toList).length = 6
  digits : ∀ group ∈ splitOn ':' mac.toList,
    group.length = 2 ∧ ∀ character ∈ group, character ∈ lowercaseDigits
  marks : ∃ first rest, octetsOfHex? (splitOn ':' mac.toList).flatten = some (first :: rest) ∧
    first &&& 2 = 2 ∧ first &&& 1 = 0

/-! ### The address of a UUID -/

theorem octetsOfUuid_eq (uuid : Uuid) :
    octetsOfUuid uuid = localUnicast (uuid.octet 0) :: (uuid.octets.drop 1).take 5 := by
  obtain ⟨octets, length_eq⟩ := uuid
  cases octets with
  | nil => cases length_eq
  | cons first rest => rfl

theorem octetsOfUuid_ne_nil (uuid : Uuid) : octetsOfUuid uuid ≠ [] := by
  rw [octetsOfUuid_eq]
  exact List.cons_ne_nil _ _

theorem length_octetsOfUuid (uuid : Uuid) : (octetsOfUuid uuid).length = 6 := by
  simp [octetsOfUuid_eq, uuid.length_eq]

theorem isLocalUnicast_text (uuid : Uuid) : IsLocalUnicast (text (octetsOfUuid uuid)) where
  groups := by
    rw [splitOn_text (octetsOfUuid_ne_nil uuid), List.length_map, length_octetsOfUuid]
  digits group member := by
    rw [splitOn_text (octetsOfUuid_ne_nil uuid)] at member
    obtain ⟨octet, -, rfl⟩ := List.mem_map.mp member
    exact ⟨rfl, fun character => mem_lowercaseDigits_of_mem⟩
  marks := by
    obtain ⟨administered, single, -, -⟩ := localUnicast_marks (uuid.octet 0)
    have back := octetsOfHex?_splitOn_text (octetsOfUuid_ne_nil uuid)
    exact ⟨_, _, back.trans (congrArg some (octetsOfUuid_eq uuid)), administered, single⟩

/-- Octets agree in a row exactly if they agree at each place of it. -/
theorem take_drop_octets_eq_iff (left right : Uuid) :
    (left.octets.drop 1).take 5 = (right.octets.drop 1).take 5 ↔
      ∀ place : Fin 16, 1 ≤ place → place ≤ 5 → left.octet place = right.octet place := by
  constructor
  · intro same place low high
    have low : 1 ≤ place.val := low
    have high : place.val ≤ 5 := high
    have here := congrArg (·[place.val - 1]?) same
    simpa [List.getElem?_take, List.getElem?_drop, show place.val - 1 < 5 by omega,
      Nat.sub_add_cancel low, left.length_eq, right.length_eq, Uuid.octet] using here
  · intro same
    refine List.ext_getElem (by simp [left.length_eq, right.length_eq]) fun number inLeft _ => ?_
    have bound : number < 5 := by simpa [left.length_eq] using inLeft
    have here := same ⟨number + 1, by omega⟩ (show 1 ≤ number + 1 by omega)
      (show number + 1 ≤ 5 by omega)
    simpa [Uuid.octet] using here

theorem text_octetsOfUuid_eq_iff (left right : Uuid) :
    text (octetsOfUuid left) = text (octetsOfUuid right) ↔
      (∀ place : Fin 16, 1 ≤ place → place ≤ 5 → left.octet place = right.octet place) ∧
        left.octet 0 &&& 0xFC = right.octet 0 &&& 0xFC := by
  rw [text_eq_iff (octetsOfUuid_ne_nil left) (octetsOfUuid_ne_nil right), octetsOfUuid_eq,
    octetsOfUuid_eq, List.cons.injEq, localUnicast_eq_iff, take_drop_octets_eq_iff, and_comm]

/-- An address is the address of a UUID that the text spells. -/
theorem derive_eq_ok_iff {spelling mac : String} :
    derive spelling = .ok mac ↔
      ∃ uuid : Uuid, uuid.Spells spelling ∧ uuid.isNil = false ∧
        mac = text (octetsOfUuid uuid) := by
  simp only [← Uuid.parse?_eq_some_iff]
  unfold derive
  cases Uuid.parse? spelling with
  | none => exact iff_of_false nofun nofun
  | some parsed =>
    cases zero : parsed.isNil with
    | true =>
      refine iff_of_false (by simp [zero]) ?_
      rintro ⟨uuid, read, proper, -⟩
      rw [← Option.some.inj read, zero] at proper
      cases proper
    | false =>
      simp only [zero, Bool.false_eq_true, ↓reduceIte, Except.ok.injEq]
      constructor
      · rintro rfl
        exact ⟨parsed, rfl, zero, rfl⟩
      · rintro ⟨uuid, read, -, rfl⟩
        rw [Option.some.inj read]

/-- A text and the canonical text that is looked for in its place have one address. -/
theorem derive_normalize (requested : String) :
    derive (Registry.normalize requested) = derive requested := by
  unfold Registry.normalize
  split
  · rename_i uuid spelled
    unfold derive
    rw [Uuid.parse?_canonical, spelled]
  · rfl

/-! ### The result -/

/-- The hardware address of a text depends on the UUID that it spells and on nothing else. There is
one exactly if the text spells a UUID, in one of its forms and in any letter case, that is not all
zeros. Whatever forms two texts are in, they have one address exactly if the octets of their UUIDs
after the first up to the sixth are the same and the first ones are, apart from their two low bits.
An address has six groups of two small digits, is marked as locally administered and is addressed
to one station; and a text may be brought into canonical form without changing its address. -/
theorem depends_on_value_only :
    (∀ spelling, (∃ mac, derive spelling = .ok mac) ↔
      ∃ uuid : Uuid, uuid.Spells spelling ∧ uuid.octets ≠ List.replicate 16 0) ∧
    (∀ (left right leftMac rightMac : String) (identity other : Uuid),
      identity.Spells left → other.Spells right →
      derive left = .ok leftMac → derive right = .ok rightMac →
      (leftMac = rightMac ↔
        (∀ place : Fin 16, 1 ≤ place → place ≤ 5 → identity.octet place = other.octet place) ∧
          identity.octet 0 &&& 0xFC = other.octet 0 &&& 0xFC)) ∧
    (∀ spelling mac, derive spelling = .ok mac → IsLocalUnicast mac) ∧
    (∀ requested, derive (Registry.normalize requested) = derive requested) := by
  have only {spelling : String} {identity other : Uuid} (spells : identity.Spells spelling)
      (same : other.Spells spelling) : other = identity :=
    Option.some.inj
      ((Uuid.parse?_eq_some_iff.mpr same).symm.trans (Uuid.parse?_eq_some_iff.mpr spells))
  refine ⟨fun spelling => ?_, ?_, fun spelling mac derived => ?_, derive_normalize⟩
  · simp only [derive_eq_ok_iff, ← Bool.not_eq_true, Uuid.isNil_iff]
    constructor
    · rintro ⟨mac, uuid, spells, proper, -⟩
      exact ⟨uuid, spells, proper⟩
    · rintro ⟨uuid, spells, proper⟩
      exact ⟨_, uuid, spells, proper, rfl⟩
  · intro left right leftMac rightMac identity other spellsLeft spellsRight derivedLeft derivedRight
    obtain ⟨uuid, spells, -, rfl⟩ := derive_eq_ok_iff.mp derivedLeft
    obtain rfl := only spellsLeft spells
    obtain ⟨uuid, spells, -, rfl⟩ := derive_eq_ok_iff.mp derivedRight
    obtain rfl := only spellsRight spells
    exact text_octetsOfUuid_eq_iff _ _
  · obtain ⟨uuid, -, -, rfl⟩ := derive_eq_ok_iff.mp derived
    exact isLocalUnicast_text uuid

/-- A UUID and another one that differs from it in the two low bits and behind the sixth octet. -/
def neighbours : Uuid × Uuid :=
  (⟨[0x6F, 0x1C, 0x2A, 0x44, 0x0B, 0x7E, 0x4C, 0x55, 0x9D, 0x1A, 0x3C, 0x2B, 0x1A, 0x0F, 0x9E,
      0x88], rfl⟩,
    ⟨[0x6C, 0x1C, 0x2A, 0x44, 0x0B, 0x7E, 0, 0, 0, 0, 0, 0, 0, 0, 0, 0], rfl⟩)

/-- Neither the form nor the letter case keeps two UUIDs apart that are too much alike. -/
theorem depends_on_value_only_of_neighbours :
    neighbours.1 ≠ neighbours.2 ∧
      ∃ mac, derive "\x7b6F1C2A44-0B7E-4C55-9D1A-3C2B1A0F9E88\x7d" = .ok mac ∧
        derive "urn:UUID:6c1c2a44-0b7e-0000-0000-000000000000" = .ok mac := by
  obtain ⟨exactly, together, -, -⟩ := depends_on_value_only
  have braced : neighbours.1.Spells "\x7b6F1C2A44-0B7E-4C55-9D1A-3C2B1A0F9E88\x7d" := by
    unfold Uuid.Spells
    decide +kernel
  have named : neighbours.2.Spells "urn:UUID:6c1c2a44-0b7e-0000-0000-000000000000" := by
    unfold Uuid.Spells
    decide +kernel
  obtain ⟨mac, first⟩ := (exactly _).mpr ⟨_, braced, by decide⟩
  obtain ⟨other, second⟩ := (exactly _).mpr ⟨_, named, by decide⟩
  have same : mac = other :=
    (together _ _ _ _ _ _ braced named first second).mpr ⟨by decide +kernel, by decide⟩
  exact ⟨by decide, mac, first, same ▸ second⟩

end Mac

end VmFleet
