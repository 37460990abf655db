/-
This file proves which texts spell a UUID. The forms of a UUID are written down once,
in lowercase: its digits, its digits in groups, the groups in braces and the groups as
a resource name. A text spells the UUID if it is one of these forms with capitals made
small, and reading finds exactly what is spelled. Letter case is settled digit by digit:
a digit has the value whose small digit it becomes. The other marks are no letters, so
they stay in place, and the four forms differ in length, so a text is read in one way.
-/

import VmFleet.Proofs.Identity.Uuid

namespace VmFleet

namespace Text

/-! ### Letter case -/

/-- What holds of every small code point holds of a character that has one. -/
theorem of_small (property : Char → Prop)
    (holds : ∀ code : Fin 128, property (Char.ofNat code.val))
    {character : Char} (small : character.toNat < 128) : property character := by
  have here := holds ⟨character.toNat, small⟩
  rwa [Char.ofNat_toNat] at here

/-- Capitals have small code points. -/
theorem toLower_of_large {character : Char} (large : 128 ≤ character.toNat) :
    character.toLower = character := by
  unfold Char.toLower
  rw [dif_neg]
  rintro ⟨-, high⟩
  have high : character.toNat ≤ 90 := high
  omega

/-- A mark that is no letter is only made small out of itself. -/
theorem toLower_eq_iff {mark : Char} (unlettered : mark ∈ ['-', '\x7b', '\x7d'])
    (character : Char) : character.toLower = mark ↔ character = mark := by
  by_cases small : character.toNat < 128
  · have all : ∀ code : Fin 128, ((Char.ofNat code.val).toLower = '-' ↔ Char.ofNat code.val = '-') ∧
        ((Char.ofNat code.val).toLower = '\x7b' ↔ Char.ofNat code.val = '\x7b') ∧
        ((Char.ofNat code.val).toLower = '\x7d' ↔ Char.ofNat code.val = '\x7d') := by
      decide +kernel
    obtain ⟨hyphen, opening, closing⟩ := of_small (fun character =>
      (character.toLower = '-' ↔ character = '-') ∧
        (character.toLower = '\x7b' ↔ character = '\x7b') ∧
        (character.toLower = '\x7d' ↔ character = '\x7d')) all small
    simp only [List.mem_cons, List.not_mem_nil, or_false] at unlettered
    rcases unlettered with rfl | rfl | rfl
    · exact hyphen
    · exact opening
    · exact closing
  · rw [toLower_of_large (Nat.not_lt.mp small)]

/-- Digits have small code points. -/
theorem hexValue?_of_large {character : Char} (large : 128 ≤ character.toNat) :
    hexValue? character = none := by
  have below {first last : Char} (small : last.toNat < 128) :
      ¬(first ≤ character ∧ character ≤ last) := by
    rintro ⟨-, high⟩
    have high : character.toNat ≤ last.toNat := high
    omega
  unfold hexValue?
  rw [if_neg (below (by decide)), if_neg (below (by decide)), if_neg (below (by decide))]

/-- The value of a digit is the one whose digit it is when it is made small. -/
theorem hexValue?_eq_some_iff {character : Char} {value : Nat} :
    hexValue? character = some value ↔ value < 16 ∧ character.toLower = hexDigit value := by
  by_cases small : character.toNat < 128
  · have all : ∀ code : Fin 128, (∀ value ∈ hexValue? (Char.ofNat code.val), value < 16) ∧
        ∀ value : Fin 16, hexValue? (Char.ofNat code.val) = some value.val ↔
          (Char.ofNat code.val).toLower = hexDigit value.val := by
      decide +kernel
    obtain ⟨bounded, digit⟩ := of_small (fun character =>
      (∀ value ∈ hexValue? character, value < 16) ∧ ∀ value : Fin 16,
        hexValue? character = some value.val ↔ character.toLower = hexDigit value.val) all small
    constructor
    · intro read
      have bound := bounded value read
      exact ⟨bound, (digit ⟨value, bound⟩).mp read⟩
    · rintro ⟨bound, same⟩
      exact (digit ⟨value, bound⟩).mpr same
  · have large := Nat.not_lt.mp small
    rw [hexValue?_of_large large, toLower_of_large large]
    refine iff_of_false nofun fun ⟨bound, same⟩ => ?_
    have digits : ∀ value : Fin 16, (hexDigit value.val).toNat < 128 := by decide
    exact small (same ▸ digits ⟨value, bound⟩)

/-- Digits spell octets exactly if they are the digits of these octets when they are made small. -/
theorem octetsOfHex?_eq_some_iff {digits : List Char} {octets : List UInt8} :
    octetsOfHex? digits = some octets ↔ digits.map Char.toLower = hexOfOctets octets := by
  induction digits using octetsOfHex?.induct generalizing octets with
  | case1 => cases octets <;> simp [octetsOfHex?, hexOfOctets, hexOfOctet]
  | case2 digit =>
    refine iff_of_false (Option.some_ne_none _).symm fun same => ?_
    have lengths := congrArg List.length same
    rw [Uuid.length_hexOfOctets, List.length_map, List.length_singleton] at lengths
    omega
  | case3 high low digits inductionHypothesis =>
    simp only [octetsOfHex?, Option.bind_eq_bind, Option.bind_eq_some_iff, Option.some.injEq]
    constructor
    · rintro ⟨highValue, readHigh, lowValue, readLow, rest, read, rfl⟩
      obtain ⟨highBound, high⟩ := hexValue?_eq_some_iff.mp readHigh
      obtain ⟨lowBound, low⟩ := hexValue?_eq_some_iff.mp readLow
      have value : (UInt8.ofNat (16 * highValue + lowValue)).toNat = 16 * highValue + lowValue :=
        UInt8.toNat_ofNat_of_lt (show 16 * highValue + lowValue < 256 by omega)
      rw [List.map_cons, List.map_cons, inductionHypothesis.mp read, high, low]
      show _ = hexDigit _ :: hexDigit _ :: hexOfOctets rest
      rw [value, show (16 * highValue + lowValue) / 16 = highValue by omega,
        show (16 * highValue + lowValue) % 16 = lowValue by omega]
    · intro same
      cases octets with
      | nil => cases same
      | cons octet octets =>
        obtain ⟨high, same⟩ := List.cons.inj (show high.toLower :: low.toLower :: _ =
          hexDigit _ :: hexDigit _ :: hexOfOctets octets from same)
        obtain ⟨low, rest⟩ := List.cons.inj same
        have bound : octet.toNat < 256 := octet.toNat_lt
        refine ⟨octet.toNat / 16, hexValue?_eq_some_iff.mpr ⟨by omega, high⟩, octet.toNat % 16,
          hexValue?_eq_some_iff.mpr ⟨by omega, low⟩, octets, inductionHypothesis.mpr rest, ?_⟩
        rw [Nat.div_add_mod, UInt8.ofNat_toNat]

end Text

open VmFleet.Text

namespace Uuid

/-! ### Groups -/

/-- The digits that are found in groups give the groups back. -/
theorem eq_hyphenate_of_unhyphenate? {sizes : List Nat} {text digits : List Char}
    (found : unhyphenate? sizes text = some digits) : text = hyphenate sizes digits := by
  induction sizes generalizing text digits with
  | nil =>
    unfold unhyphenate? at found
    split at found
    · rename_i empty
      rw [List.isEmpty_iff.mp empty, ← Option.some.inj found]
      rfl
    · cases found
  | cons size sizes inductionHypothesis =>
    cases sizes with
    | nil =>
      unfold unhyphenate? at found
      split at found
      · exact Option.some.inj found
      · cases found
    | cons next sizes =>
      unfold unhyphenate? at found
      split at found
      · rename_i rest cut
        obtain ⟨others, read, rfl⟩ := Option.map_eq_some_iff.mp found
        have long : size ≤ text.length := by
          by_contra short
          rw [List.drop_eq_nil_of_le (by omega)] at cut
          cases cut
        have length : (text.take size).length = size := List.length_take_of_le long
        have whole : text = text.take size ++ '-' :: rest := by
          rw [← cut, List.take_append_drop]
        have again : hyphenate (size :: next :: sizes) (text.take size ++ others) =
            text.take size ++ '-' :: hyphenate (next :: sizes) others := by
          simp [hyphenate, length]
        rw [again, ← inductionHypothesis read]
        exact whole
      · cases found

/-- Changing digits one by one and putting them into groups can be done in either order. -/
theorem map_hyphenate (change : Char → Char) (hyphen : change '-' = '-') (sizes : List Nat)
    (digits : List Char) :
    (hyphenate sizes digits).map change = hyphenate sizes (digits.map change) := by
  induction sizes generalizing digits with
  | nil => rfl
  | cons size sizes inductionHypothesis =>
    cases sizes with
    | nil => rfl
    | cons next sizes => simp [hyphenate, inductionHypothesis, hyphen]

/-- A change that only makes hyphens out of hyphens does not hide the groups. -/
theorem unhyphenate?_map {change : Char → Char}
    (hyphen : ∀ character, change character = '-' ↔ character = '-') (sizes : List Nat)
    (text : List Char) :
    unhyphenate? sizes (text.map change) = (unhyphenate? sizes text).map (·.map change) := by
  induction sizes generalizing text with
  | nil =>
    unfold unhyphenate?
    cases text <;> rfl
  | cons size sizes inductionHypothesis =>
    cases sizes with
    | nil =>
      unfold unhyphenate?
      rw [List.length_map]
      split <;> rfl
    | cons next sizes =>
      unfold unhyphenate?
      rw [← List.map_drop, ← List.map_take]
      cases cut : text.drop size with
      | nil => rfl
      | cons character rest =>
        by_cases same : character = '-'
        · subst same
          simp [(hyphen '-').mpr rfl, inductionHypothesis, Function.comp_def]
        · have other : change character ≠ '-' := fun back => same ((hyphen character).mp back)
          simp [same, other]

/-! ### The forms -/

/-- The digits of a UUID. -/
def digits (uuid : Uuid) : List Char :=
  hexOfOctets uuid.octets

/-- The digits of a UUID in groups. -/
def grouped (uuid : Uuid) : List Char :=
  hyphenate groups uuid.digits

/-- The accepted forms of a UUID, in lowercase: its digits, the groups, the groups in braces and
the groups as a resource name. -/
def forms (uuid : Uuid) : List (List Char) :=
  [uuid.digits, uuid.grouped, '\x7b' :: uuid.grouped ++ ['\x7d'], resourceOpening ++ uuid.grouped]

/-- A text spells a UUID if it is one of the forms when capitals are made small. -/
def Spells (uuid : Uuid) (text : String) : Prop :=
  text.toList.map Char.toLower ∈ uuid.forms

theorem length_digits (uuid : Uuid) : uuid.digits.length = 32 := by
  rw [digits, length_hexOfOctets, uuid.length_eq]

theorem length_grouped (uuid : Uuid) : uuid.grouped.length = 36 := by
  simp [grouped, hyphenate, groups, uuid.length_digits]

theorem ofDigits?_eq_some_iff {text : List Char} {uuid : Uuid} :
    ofDigits? text = some uuid ↔ text.map Char.toLower = uuid.digits := by
  unfold ofDigits? digits
  rw [← octetsOfHex?_eq_some_iff]
  obtain ⟨octets, length_eq⟩ := uuid
  cases octetsOfHex? text with
  | none => simp
  | some found =>
    by_cases whole : found.length = 16
    · simp [whole]
    · simp only [whole, ↓reduceDIte, Option.some.injEq]
      refine iff_of_false (Option.some_ne_none _).symm ?_
      rintro rfl
      exact whole length_eq

theorem ofHyphenated?_eq_some_iff {text : List Char} {uuid : Uuid} :
    ofHyphenated? text = some uuid ↔ text.map Char.toLower = uuid.grouped := by
  unfold ofHyphenated?
  rw [Option.bind_eq_some_iff]
  constructor
  · rintro ⟨found, cut, read⟩
    rw [eq_hyphenate_of_unhyphenate? cut, map_hyphenate _ (by decide),
      ofDigits?_eq_some_iff.mp read, grouped]
  · intro same
    have cut := unhyphenate?_hyphenate groups uuid.digits (by rw [length_digits]; rfl)
    rw [← grouped, ← same, unhyphenate?_map (toLower_eq_iff (by decide))] at cut
    obtain ⟨found, cut, lower⟩ := Option.map_eq_some_iff.mp cut
    exact ⟨found, cut, ofDigits?_eq_some_iff.mpr lower⟩

theorem unbrace?_eq_some_iff {text inner : List Char} :
    unbrace? text = some inner ↔ text = '\x7b' :: inner ++ ['\x7d'] := by
  constructor
  · intro found
    unfold unbrace? at found
    split at found
    · split at found
      · rename_i closed
        rw [← Option.some.inj found, List.cons_append, ← List.reverse_cons, ← closed,
          List.reverse_reverse]
      · cases found
    · cases found
  · rintro rfl
    simp [unbrace?]

/-- A text in braces spells what the text inside does. -/
theorem braced_eq_some_iff {text : List Char} {uuid : Uuid} :
    (unbrace? text).bind ofHyphenated? = some uuid ↔
      text.map Char.toLower = '\x7b' :: uuid.grouped ++ ['\x7d'] := by
  simp only [Option.bind_eq_some_iff, unbrace?_eq_some_iff, ofHyphenated?_eq_some_iff]
  constructor
  · rintro ⟨inner, rfl, same⟩
    simp [same]
  · intro same
    obtain ⟨opening, others, rfl, opened, rest⟩ := List.map_eq_cons_iff.mp same
    obtain ⟨inner, closing, rfl, inside, ending⟩ := List.map_eq_append_iff.mp rest
    obtain ⟨last, nothing, rfl, closed, empty⟩ := List.map_eq_cons_iff.mp ending
    obtain rfl := List.map_eq_nil_iff.mp empty
    obtain rfl := (@toLower_eq_iff '\x7b' (by decide) _).mp opened
    obtain rfl := (@toLower_eq_iff '\x7d' (by decide) _).mp closed
    exact ⟨inner, rfl, inside⟩

/-- A resource name spells what the text after its opening does. -/
theorem named_eq_some_iff {text : List Char} {uuid : Uuid} :
    (unname? text).bind ofHyphenated? = some uuid ↔
      text.map Char.toLower = resourceOpening ++ uuid.grouped := by
  have halves : text.map Char.toLower =
      (text.take 9).map Char.toLower ++ (text.drop 9).map Char.toLower := by
    rw [← List.map_append, List.take_append_drop]
  unfold unname?
  split
  · rename_i opened
    rw [Option.bind_some, ofHyphenated?_eq_some_iff, halves, opened, List.append_cancel_left_eq]
  · rename_i other
    refine iff_of_false (Option.some_ne_none _).symm fun same => other ?_
    rw [List.map_take, same]
    rfl

/-- Reading finds the UUID that a text spells, and nothing else. -/
theorem parse?_eq_some_iff {text : String} {uuid : Uuid} :
    parse? text = some uuid ↔ uuid.Spells text := by
  unfold Spells forms
  simp only [List.mem_cons, List.not_mem_nil, or_false]
  constructor
  · intro read
    unfold parse? at read
    simp only at read
    split at read
    · exact .inl (ofDigits?_eq_some_iff.mp read)
    · exact .inr (.inl (ofHyphenated?_eq_some_iff.mp read))
    · exact .inr (.inr (.inl (braced_eq_some_iff.mp read)))
    · exact .inr (.inr (.inr (named_eq_some_iff.mp read)))
    · cases read
  · -- each form has a length of its own, which tells how the text is read
    intro spelled
    have length {form : List Char} (same : text.toList.map Char.toLower = form) :
        text.toList.length = form.length := by
      rw [← same, List.length_map]
    unfold parse?
    simp only
    rcases spelled with plain | grouped | braced | named
    · rw [(length plain).trans uuid.length_digits]
      exact ofDigits?_eq_some_iff.mpr plain
    · rw [(length grouped).trans uuid.length_grouped]
      exact ofHyphenated?_eq_some_iff.mpr grouped
    · rw [length braced, List.length_append, List.length_cons, uuid.length_grouped]
      exact braced_eq_some_iff.mpr braced
    · rw [length named, List.length_append, uuid.length_grouped]
      exact named_eq_some_iff.mpr named

end Uuid

end VmFleet
