/-
This file proves that text and its octets stand for each other. A text is read back
from its octets, and octets are read as a text only if they are the octets of this
text: each way of writing a character has its own range of starts, and the narrower
ranges of the next octet leave out what takes fewer octets and what is no character.
-/

import Mathlib.Tactic.IntervalCases
import VmFleet.Proofs.Text.Utf8

namespace VmFleet.Text

/-! ### Text is read from its octets -/

theorem Lead.ofOctet?_two {bits : Nat} (low : 2 ≤ bits) (high : bits < 32) :
    ofOctet? (UInt8.ofNat (bits + 0xC0)) = some ⟨1, 0x80, 0xBF, bits⟩ := by
  interval_cases bits <;> rfl

theorem Lead.ofOctet?_three {bits : Nat} (high : bits < 16) :
    ofOctet? (UInt8.ofNat (bits + 0xE0)) =
      some ⟨2, if bits = 0 then 0xA0 else 0x80, if bits = 13 then 0x9F else 0xBF, bits⟩ := by
  interval_cases bits <;> rfl

theorem Lead.ofOctet?_four {bits : Nat} (high : bits < 5) :
    ofOctet? (UInt8.ofNat (bits + 0xF0)) =
      some ⟨3, if bits = 0 then 0x90 else 0x80, if bits = 4 then 0x8F else 0xBF, bits⟩ := by
  interval_cases bits <;> rfl

/-- A continuation octet in its range takes a character on. -/
theorem pieces_continue (lead : Lead) (octets : List UInt8) {bits : Nat} (small : bits < 64)
    (low : lead.lowest.toNat ≤ bits + 0x80) (high : bits + 0x80 ≤ lead.highest.toNat) :
    pieces (some lead) (UInt8.ofNat (bits + 0x80) :: octets) =
      if lead.owed ≤ 1 then some (Char.ofNat (64 * lead.value + bits)) :: pieces none octets
      else pieces (some ⟨lead.owed - 1, 0x80, 0xBF, 64 * lead.value + bits⟩) octets := by
  have octet : (UInt8.ofNat (bits + 0x80)).toNat = bits + 0x80 := by
    rw [UInt8.toNat_ofNat']
    omega
  have inside :
      lead.lowest ≤ UInt8.ofNat (bits + 0x80) ∧ UInt8.ofNat (bits + 0x80) ≤ lead.highest := by
    rw [UInt8.le_iff_toNat_le, UInt8.le_iff_toNat_le, octet]
    exact ⟨low, high⟩
  rw [pieces, if_pos inside, octet, Nat.add_sub_cancel]

/-- The octet that starts a longer character. -/
theorem pieces_start {octet : UInt8} {lead : Lead} (starts : Lead.ofOctet? octet = some lead)
    (long : lead.owed ≠ 0) (octets : List UInt8) :
    pieces none (octet :: octets) = pieces (some lead) octets := by
  rw [pieces, starts]
  exact if_neg long

/-- A continuation octet that is not the last one. -/
theorem pieces_more {owed : Nat} (lowest highest : UInt8) (value : Nat) (octets : List UInt8)
    {bits : Nat} (more : 1 < owed) (small : bits < 64) (low : lowest.toNat ≤ bits + 0x80)
    (high : bits + 0x80 ≤ highest.toNat) :
    pieces (some ⟨owed, lowest, highest, value⟩) (UInt8.ofNat (bits + 0x80) :: octets) =
      pieces (some ⟨owed - 1, 0x80, 0xBF, 64 * value + bits⟩) octets :=
  (pieces_continue _ octets small low high).trans (if_neg (Nat.not_le.mpr more))

/-- The last octet of a character. -/
theorem pieces_last (lowest highest : UInt8) (value : Nat) (octets : List UInt8) {bits : Nat}
    (small : bits < 64) (low : lowest.toNat ≤ bits + 0x80) (high : bits + 0x80 ≤ highest.toNat) :
    pieces (some ⟨1, lowest, highest, value⟩) (UInt8.ofNat (bits + 0x80) :: octets) =
      some (Char.ofNat (64 * value + bits)) :: pieces none octets :=
  (pieces_continue _ octets small low high).trans (if_pos (Nat.le_refl 1))

/-- A character of one octet. -/
theorem pieces_one {value : Nat} (small : value < 0x80) (octets : List UInt8) :
    pieces none (UInt8.ofNat value :: octets) = some (Char.ofNat value) :: pieces none octets := by
  have octet : (UInt8.ofNat value).toNat = value := by
    rw [UInt8.toNat_ofNat']
    omega
  have low : UInt8.ofNat value < 0x80 := by
    rw [UInt8.lt_iff_toNat_lt, octet]
    exact small
  have starts : Lead.ofOctet? (UInt8.ofNat value) = some ⟨0, 0x80, 0xBF, value⟩ := by
    unfold Lead.ofOctet?
    rw [if_pos low, octet]
  rw [pieces, starts]
  rfl

/-- The range of continuation octets. -/
theorem continuation_bounds {bits : Nat} (small : bits < 64) :
    UInt8.toNat 0x80 ≤ bits + 0x80 ∧ bits + 0x80 ≤ UInt8.toNat 0xBF := by
  have lowest : UInt8.toNat 0x80 = 128 := rfl
  have highest : UInt8.toNat 0xBF = 191 := rfl
  omega

/-- A character of two octets. -/
theorem pieces_two {value : Nat} (low : 0x80 ≤ value) (high : value < 0x800)
    (octets : List UInt8) :
    pieces none (UInt8.ofNat (value / 64 % 32 + 0xC0) :: UInt8.ofNat (value % 64 + 0x80) ::
        octets) = some (Char.ofNat value) :: pieces none octets := by
  obtain ⟨least, most⟩ := continuation_bounds (Nat.mod_lt value (by decide : 0 < 64))
  have whole : 64 * (value / 64 % 32) + value % 64 = value := by omega
  rw [pieces_start (Lead.ofOctet?_two (by omega) (by omega)) Nat.one_ne_zero,
    pieces_last _ _ _ _ (by omega) least most, whole]

/-- A character of three octets, which is no half of a pair. -/
theorem pieces_three {value : Nat} (low : 0x800 ≤ value) (high : value < 0x10000)
    (valid : value.isValidChar) (octets : List UInt8) :
    pieces none (UInt8.ofNat (value / 4096 % 16 + 0xE0) ::
        UInt8.ofNat (value / 64 % 64 + 0x80) :: UInt8.ofNat (value % 64 + 0x80) :: octets) =
      some (Char.ofNat value) :: pieces none octets := by
  obtain ⟨least, most⟩ := continuation_bounds (Nat.mod_lt value (by decide : 0 < 64))
  have unpaired : value < 0xD800 ∨ 0xDFFF < value ∧ value < 0x110000 := valid
  have lowest : UInt8.toNat (if value / 4096 % 16 = 0 then 0xA0 else 0x80) ≤
      value / 64 % 64 + 0x80 := by
    split
    · show 160 ≤ _
      omega
    · show 128 ≤ _
      omega
  have highest : value / 64 % 64 + 0x80 ≤
      UInt8.toNat (if value / 4096 % 16 = 13 then 0x9F else 0xBF) := by
    split
    · show _ ≤ 159
      omega
    · show _ ≤ 191
      omega
  have whole : 64 * (64 * (value / 4096 % 16) + value / 64 % 64) + value % 64 = value := by omega
  rw [pieces_start (Lead.ofOctet?_three (by omega)) (Nat.succ_ne_zero 1),
    pieces_more _ _ _ _ (by decide) (by omega) lowest highest,
    pieces_last _ _ _ _ (by omega) least most, whole]

/-- A character of four octets, which is not above the last one. -/
theorem pieces_four {value : Nat} (low : 0x10000 ≤ value) (valid : value.isValidChar)
    (octets : List UInt8) :
    pieces none (UInt8.ofNat (value / 262144 % 8 + 0xF0) ::
        UInt8.ofNat (value / 4096 % 64 + 0x80) :: UInt8.ofNat (value / 64 % 64 + 0x80) ::
        UInt8.ofNat (value % 64 + 0x80) :: octets) =
      some (Char.ofNat value) :: pieces none octets := by
  obtain ⟨least, most⟩ := continuation_bounds (Nat.mod_lt value (by decide : 0 < 64))
  obtain ⟨leastToo, mostToo⟩ :=
    continuation_bounds (Nat.mod_lt (value / 64) (by decide : 0 < 64))
  have bounded : value < 0xD800 ∨ 0xDFFF < value ∧ value < 0x110000 := valid
  have lowest : UInt8.toNat (if value / 262144 % 8 = 0 then 0x90 else 0x80) ≤
      value / 4096 % 64 + 0x80 := by
    split
    · show 144 ≤ _
      omega
    · show 128 ≤ _
      omega
  have highest : value / 4096 % 64 + 0x80 ≤
      UInt8.toNat (if value / 262144 % 8 = 4 then 0x8F else 0xBF) := by
    split
    · show _ ≤ 143
      omega
    · show _ ≤ 191
      omega
  have whole : 64 * (64 * (64 * (value / 262144 % 8) + value / 4096 % 64) + value / 64 % 64) +
      value % 64 = value := by
    omega
  rw [pieces_start (Lead.ofOctet?_four (by omega)) (Nat.succ_ne_zero 2),
    pieces_more _ _ _ _ (by decide) (by omega) lowest highest,
    pieces_more _ _ _ _ (by decide) (by omega) leastToo mostToo,
    pieces_last _ _ _ _ (by omega) least most, whole]

/-- A character is read from its octets. -/
theorem pieces_utf8EncodeChar (character : Char) (octets : List UInt8) :
    pieces none (String.utf8EncodeChar character ++ octets) =
      some character :: pieces none octets := by
  have valid : character.val.toNat.isValidChar := character.valid
  have same : Char.ofNat character.val.toNat = character := Char.ofNat_toNat character
  unfold String.utf8EncodeChar
  generalize character.val.toNat = value at valid same
  subst same
  dsimp only
  split
  · exact pieces_one (by omega) octets
  split
  · exact pieces_two (by omega) (by omega) octets
  split
  · exact pieces_three (by omega) (by omega) valid octets
  · exact pieces_four (by omega) valid octets

/-- Characters are read from their octets, whatever comes after them. -/
theorem pieces_flatMap (characters : List Char) (octets : List UInt8) :
    pieces none (characters.flatMap String.utf8EncodeChar ++ octets) =
      characters.map some ++ pieces none octets := by
  induction characters with
  | nil => rfl
  | cons character characters inductionHypothesis =>
    rw [List.flatMap_cons, List.append_assoc, pieces_utf8EncodeChar, inductionHypothesis,
      List.map_cons, List.cons_append]

theorem pieces_octetsOf (text : String) : pieces none (octetsOf text) = text.toList.map some := by
  have read := pieces_flatMap text.toList []
  rwa [pieces, List.append_nil, List.append_nil, ← octetsOf_eq] at read

/-- Text is read back from its octets. -/
theorem decodeLossy_octetsOf (text : String) : decodeLossy (octetsOf text) = text := by
  have same : ((fun piece : Option Char => piece.getD replacement) ∘ some) = id := rfl
  unfold decodeLossy
  rw [pieces_octetsOf, List.map_map, same, List.map_id, String.ofList_toList]

/-- The strict reader reads it back too. -/
theorem decode?_octetsOf (text : String) : decode? (octetsOf text) = some text := by
  have same : text.toList.mapM (id ∘ some) = some (text.toList.map id) := List.mapM_pure
  unfold decode?
  rw [pieces_octetsOf, List.mapM_map, same, List.map_id, Option.map_some, String.ofList_toList]

/-! ### What is read as text are its octets -/

/-- Reading goes through only if each piece is a character. -/
theorem mapM_cons_eq_some {piece : Option Char} {pieces : List (Option Char)}
    {characters : List Char} (read : (piece :: pieces).mapM id = some characters) :
    ∃ character rest, piece = some character ∧ pieces.mapM id = some rest ∧
      characters = character :: rest := by
  rw [List.mapM_cons] at read
  obtain ⟨character, same, others⟩ := Option.bind_eq_some_iff.mp read
  obtain ⟨rest, onward, whole⟩ := Option.bind_eq_some_iff.mp others
  exact ⟨character, rest, same, onward, (Option.some.inj whole).symm⟩

/-- A character under way goes on with a continuation octet in its range, when the whole is read
as text. -/
theorem exists_continuation {owed value : Nat} {lowest highest : UInt8} {octets : List UInt8}
    {characters : List Char} (floor : 0x80 ≤ lowest.toNat) (ceiling : highest.toNat ≤ 0xBF)
    (read : (pieces (some ⟨owed, lowest, highest, value⟩) octets).mapM id = some characters) :
    ∃ bits rest, octets = UInt8.ofNat (bits + 0x80) :: rest ∧ bits < 64 ∧
      lowest.toNat ≤ bits + 0x80 ∧ bits + 0x80 ≤ highest.toNat := by
  cases octets with
  | nil =>
    obtain ⟨character, rest, same, -⟩ := mapM_cons_eq_some read
    cases same
  | cons octet rest =>
    rw [pieces] at read
    split at read
    · rename_i inside
      have least : lowest.toNat ≤ octet.toNat := UInt8.le_iff_toNat_le.mp inside.1
      have most : octet.toNat ≤ highest.toNat := UInt8.le_iff_toNat_le.mp inside.2
      refine ⟨octet.toNat - 0x80, rest, ?_, by omega, by omega, by omega⟩
      rw [Nat.sub_add_cancel (by omega), UInt8.ofNat_toNat]
    · split at read
      · obtain ⟨character, tail, same, -⟩ := mapM_cons_eq_some read
        cases same
      · split at read
        all_goals
          obtain ⟨character, tail, same, -⟩ := mapM_cons_eq_some read
          cases same

/-- The starts of characters, by how many octets these take. -/
theorem Lead.forms_ofOctet? {octet : UInt8} {lead : Lead} (starts : ofOctet? octet = some lead) :
    octet.toNat < 0x80 ∧ lead = ⟨0, 0x80, 0xBF, octet.toNat⟩ ∨
      (∃ bits, octet = UInt8.ofNat (bits + 0xC0) ∧ 2 ≤ bits ∧ bits < 32 ∧
        lead = ⟨1, 0x80, 0xBF, bits⟩) ∨
      (∃ bits, octet = UInt8.ofNat (bits + 0xE0) ∧ bits < 16 ∧ lead =
        ⟨2, if bits = 0 then 0xA0 else 0x80, if bits = 13 then 0x9F else 0xBF, bits⟩) ∨
      ∃ bits, octet = UInt8.ofNat (bits + 0xF0) ∧ bits < 5 ∧ lead =
        ⟨3, if bits = 0 then 0x90 else 0x80, if bits = 4 then 0x8F else 0xBF, bits⟩ := by
  unfold ofOctet? at starts
  dsimp only at starts
  have bound : ∀ {limit : UInt8}, octet < limit ↔ octet.toNat < limit.toNat := UInt8.lt_iff_toNat_lt
  have value : ∀ {other : UInt8}, octet = other ↔ octet.toNat = other.toNat :=
    UInt8.toNat_inj.symm
  simp only [bound, value, UInt8.reduceToNat] at starts
  split at starts
  · rename_i single
    exact .inl ⟨single, (Option.some.inj starts).symm⟩
  split at starts
  · cases starts
  have above : ∀ base, base ≤ octet.toNat → octet = UInt8.ofNat (octet.toNat - base + base) := by
    intro base least
    rw [Nat.sub_add_cancel least, UInt8.ofNat_toNat]
  iterate 7
    split at starts
    · obtain rfl := Option.some.inj starts
      first
      | exact .inr (.inl ⟨octet.toNat - 0xC0, above _ (by omega), by omega, by omega, rfl⟩)
      | refine .inr (.inr (.inl ⟨octet.toNat - 0xE0, above _ (by omega), by omega, ?_⟩))
        split <;> split <;> first | rfl | omega
      | refine .inr (.inr (.inr ⟨octet.toNat - 0xF0, above _ (by omega), by omega, ?_⟩))
        split <;> split <;> first | rfl | omega
  cases starts

theorem toNat_val_ofNat {value : Nat} (valid : value.isValidChar) :
    (Char.ofNat value).val.toNat = value := by
  unfold Char.ofNat
  rw [dif_pos valid]
  rfl

/-- The octets of the character with some number. -/
theorem utf8EncodeChar_ofNat {value : Nat} (valid : value.isValidChar) :
    String.utf8EncodeChar (Char.ofNat value) =
      if value ≤ 0x7F then [UInt8.ofNat value]
      else if value ≤ 0x7FF then
        [UInt8.ofNat (value / 64 % 32 + 0xC0), UInt8.ofNat (value % 64 + 0x80)]
      else if value ≤ 0xFFFF then
        [UInt8.ofNat (value / 4096 % 16 + 0xE0), UInt8.ofNat (value / 64 % 64 + 0x80),
          UInt8.ofNat (value % 64 + 0x80)]
      else
        [UInt8.ofNat (value / 262144 % 8 + 0xF0), UInt8.ofNat (value / 4096 % 64 + 0x80),
          UInt8.ofNat (value / 64 % 64 + 0x80), UInt8.ofNat (value % 64 + 0x80)] := by
  unfold String.utf8EncodeChar
  rw [toNat_val_ofNat valid]

theorem utf8EncodeChar_one {octet : UInt8} (small : octet.toNat < 0x80) :
    String.utf8EncodeChar (Char.ofNat octet.toNat) = [octet] := by
  rw [utf8EncodeChar_ofNat (.inl (by omega)), if_pos (Nat.le_of_lt_succ small), UInt8.ofNat_toNat]

theorem utf8EncodeChar_two {bits second : Nat} (low : 2 ≤ bits) (high : bits < 32)
    (small : second < 64) :
    String.utf8EncodeChar (Char.ofNat (64 * bits + second)) =
      [UInt8.ofNat (bits + 0xC0), UInt8.ofNat (second + 0x80)] := by
  rw [utf8EncodeChar_ofNat (.inl (by omega)), if_neg (by omega), if_pos (by omega),
    show (64 * bits + second) / 64 % 32 = bits by omega,
    show (64 * bits + second) % 64 = second by omega]

theorem utf8EncodeChar_three {bits second third : Nat} (high : bits < 16) (small : second < 64)
    (last : third < 64) (wide : bits = 0 → 0x20 ≤ second) (unpaired : bits = 13 → second < 0x20) :
    String.utf8EncodeChar (Char.ofNat (64 * (64 * bits + second) + third)) =
      [UInt8.ofNat (bits + 0xE0), UInt8.ofNat (second + 0x80), UInt8.ofNat (third + 0x80)] := by
  have valid : (64 * (64 * bits + second) + third).isValidChar := by
    unfold Nat.isValidChar
    omega
  rw [utf8EncodeChar_ofNat valid, if_neg (by omega), if_neg (by omega), if_pos (by omega),
    show (64 * (64 * bits + second) + third) / 4096 % 16 = bits by omega,
    show (64 * (64 * bits + second) + third) / 64 % 64 = second by omega,
    show (64 * (64 * bits + second) + third) % 64 = third by omega]

theorem utf8EncodeChar_four {bits second third fourth : Nat} (high : bits < 5)
    (small : second < 64) (more : third < 64) (last : fourth < 64)
    (wide : bits = 0 → 0x10 ≤ second) (below : bits = 4 → second < 0x10) :
    String.utf8EncodeChar (Char.ofNat (64 * (64 * (64 * bits + second) + third) + fourth)) =
      [UInt8.ofNat (bits + 0xF0), UInt8.ofNat (second + 0x80), UInt8.ofNat (third + 0x80),
        UInt8.ofNat (fourth + 0x80)] := by
  have valid : (64 * (64 * (64 * bits + second) + third) + fourth).isValidChar := by
    unfold Nat.isValidChar
    omega
  rw [utf8EncodeChar_ofNat valid, if_neg (by omega), if_neg (by omega), if_neg (by omega),
    show (64 * (64 * (64 * bits + second) + third) + fourth) / 262144 % 8 = bits by omega,
    show (64 * (64 * (64 * bits + second) + third) + fourth) / 4096 % 64 = second by omega,
    show (64 * (64 * (64 * bits + second) + third) + fourth) / 64 % 64 = third by omega,
    show (64 * (64 * (64 * bits + second) + third) + fourth) % 64 = fourth by omega]

/-- Octets that are read as text start with those of its first character. -/
theorem exists_eq_utf8EncodeChar_append {octet : UInt8} {octets : List UInt8}
    {characters : List Char} (read : (pieces none (octet :: octets)).mapM id = some characters) :
    ∃ character tail rest, characters = character :: tail ∧
      octet :: octets = String.utf8EncodeChar character ++ rest ∧
      (pieces none rest).mapM id = some tail := by
  rw [pieces] at read
  split at read
  · obtain ⟨character, rest, same, -⟩ := mapM_cons_eq_some read
    cases same
  rename_i lead starts
  rcases Lead.forms_ofOctet? starts with ⟨small, rfl⟩ | ⟨bits, rfl, low, high, rfl⟩ |
    ⟨bits, rfl, high, rfl⟩ | ⟨bits, rfl, high, rfl⟩
  · dsimp only at read
    rw [if_pos rfl] at read
    obtain ⟨character, tail, same, onward, rfl⟩ := mapM_cons_eq_some read
    obtain rfl := Option.some.inj same
    exact ⟨_, tail, octets, rfl, by rw [utf8EncodeChar_one small]; rfl, onward⟩
  · dsimp only at read
    rw [if_neg Nat.one_ne_zero] at read
    obtain ⟨second, rest, rfl, small, least, most⟩ :=
      exists_continuation (by decide) (by decide) read
    rw [pieces_last _ _ _ _ small least most] at read
    obtain ⟨character, tail, same, onward, rfl⟩ := mapM_cons_eq_some read
    obtain rfl := Option.some.inj same
    exact ⟨_, tail, rest, rfl, by rw [utf8EncodeChar_two low high small]; rfl, onward⟩
  · dsimp only at read
    rw [if_neg (Nat.succ_ne_zero 1)] at read
    obtain ⟨second, onward, rfl, small, least, most⟩ :=
      exists_continuation (by split <;> decide) (by split <;> decide) read
    rw [pieces_more _ _ _ _ (by decide) small least most] at read
    obtain ⟨third, rest, rfl, last, least', most'⟩ :=
      exists_continuation (by decide) (by decide) read
    rw [pieces_last _ _ _ _ last least' most'] at read
    obtain ⟨character, tail, same, onward, rfl⟩ := mapM_cons_eq_some read
    obtain rfl := Option.some.inj same
    -- the narrower ranges leave out what takes fewer octets and the halves of pairs
    have wide : bits = 0 → 0x20 ≤ second := by
      rintro rfl
      have bound : 0x20 + 0x80 ≤ second + 0x80 := least
      exact Nat.le_of_add_le_add_right bound
    have unpaired : bits = 13 → second < 0x20 := by
      rintro rfl
      have bound : second + 0x80 ≤ 0x1F + 0x80 := most
      exact Nat.lt_succ_of_le (Nat.le_of_add_le_add_right bound)
    exact ⟨_, tail, rest, rfl, by rw [utf8EncodeChar_three high small last wide unpaired]; rfl,
      onward⟩
  · dsimp only at read
    rw [if_neg (Nat.succ_ne_zero 2)] at read
    obtain ⟨second, onward, rfl, small, least, most⟩ :=
      exists_continuation (by split <;> decide) (by split <;> decide) read
    rw [pieces_more _ _ _ _ (by decide) small least most] at read
    obtain ⟨third, onward, rfl, more, least', most'⟩ :=
      exists_continuation (by decide) (by decide) read
    rw [pieces_more _ _ _ _ (by decide) more least' most'] at read
    obtain ⟨fourth, rest, rfl, last, least'', most''⟩ :=
      exists_continuation (by decide) (by decide) read
    rw [pieces_last _ _ _ _ last least'' most''] at read
    obtain ⟨character, tail, same, onward, rfl⟩ := mapM_cons_eq_some read
    obtain rfl := Option.some.inj same
    -- the narrower ranges leave out what takes fewer octets and what is above the last character
    have wide : bits = 0 → 0x10 ≤ second := by
      rintro rfl
      have bound : 0x10 + 0x80 ≤ second + 0x80 := least
      exact Nat.le_of_add_le_add_right bound
    have below : bits = 4 → second < 0x10 := by
      rintro rfl
      have bound : second + 0x80 ≤ 0x0F + 0x80 := most
      exact Nat.lt_succ_of_le (Nat.le_of_add_le_add_right bound)
    exact ⟨_, tail, rest, rfl, by rw [utf8EncodeChar_four high small more last wide below]; rfl,
      onward⟩

/-- What is read as text are the octets of its characters. -/
theorem eq_flatMap_of_pieces {octets : List UInt8} {characters : List Char}
    (read : (pieces none octets).mapM id = some characters) :
    octets = characters.flatMap String.utf8EncodeChar := by
  induction characters generalizing octets with
  | nil =>
    cases octets with
    | nil => rfl
    | cons octet octets =>
      obtain ⟨character, tail, rest, same, -⟩ := exists_eq_utf8EncodeChar_append read
      cases same
  | cons character characters inductionHypothesis =>
    cases octets with
    | nil => cases read
    | cons octet octets =>
      obtain ⟨first, tail, rest, same, split, onward⟩ := exists_eq_utf8EncodeChar_append read
      obtain ⟨rfl, rfl⟩ := List.cons.inj same
      rw [split, List.flatMap_cons, inductionHypothesis onward]

/-- Octets are read as a text exactly if they are its octets. -/
theorem decode?_eq_some_iff {octets : List UInt8} {text : String} :
    decode? octets = some text ↔ octetsOf text = octets := by
  constructor
  · intro read
    obtain ⟨characters, whole, rfl⟩ := Option.map_eq_some_iff.mp read
    rw [octetsOf_eq, String.toList_ofList, eq_flatMap_of_pieces whole]
  · rintro rfl
    exact decode?_octetsOf text

end VmFleet.Text
