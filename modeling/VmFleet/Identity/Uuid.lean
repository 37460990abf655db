/-
This file holds UUIDs: sixteen octets, four accepted spellings and one canonical
spelling. Letter case never counts. The canonical text is written in lowercase
in five groups, and reading it gives the same UUID back: `parse?_canonical`.
-/

import VmFleet.Number.Total
import VmFleet.Text.Hex

namespace VmFleet

open VmFleet.Text

/-- A UUID is sixteen octets. -/
structure Uuid where
  octets : List UInt8
  length_eq : octets.length = 16
deriving DecidableEq, Repr

namespace Uuid

/-- The lengths of the five groups of digits. -/
def groups : List Nat := [8, 4, 4, 4, 12]

/-- Digits cut into groups that are joined by hyphens. -/
def hyphenate : List Nat → List Char → List Char
  | [], digits => digits
  | [_], digits => digits
  | size :: sizes, digits => digits.take size ++ '-' :: hyphenate sizes (digits.drop size)

/-- The digits of a text whose groups are joined by hyphens. -/
def unhyphenate? : List Nat → List Char → Option (List Char)
  | [], text => if text.isEmpty then some [] else none
  | [size], text => if text.length = size then some text else none
  | size :: sizes, text =>
    match text.drop size with
    | '-' :: rest => (unhyphenate? sizes rest).map (text.take size ++ ·)
    | _ => none

/-- The UUID whose thirty-two digits these are. -/
def ofDigits? (digits : List Char) : Option Uuid :=
  match octetsOfHex? digits with
  | some octets =>
    if length_eq : octets.length = 16 then some ⟨octets, length_eq⟩ else none
  | none => none

/-- The UUID of a text in groups. -/
def ofHyphenated? (text : List Char) : Option Uuid :=
  (unhyphenate? groups text).bind ofDigits?

/-- The opening of the resource-name spelling. -/
def resourceOpening : List Char := "urn:uuid:".toList

/-- The text inside braces, when it stands in braces. -/
def unbrace? : List Char → Option (List Char)
  | '\x7b' :: text =>
    match text.reverse with
    | '\x7d' :: inner => some inner.reverse
    | _ => none
  | _ => none

/-- The text after the opening of a resource name, in either letter case. -/
def unname? (text : List Char) : Option (List Char) :=
  if (text.take 9).map Char.toLower = resourceOpening then some (text.drop 9) else none

/-- The UUID that a text spells: thirty-two digits, five groups joined by
hyphens, these groups in braces, or these groups as a resource name. The length
decides which spelling is meant, so no text has two readings. -/
def parse? (text : String) : Option Uuid :=
  let characters := text.toList
  match characters.length with
  | 32 => ofDigits? characters
  | 36 => ofHyphenated? characters
  | 38 => (unbrace? characters).bind ofHyphenated?
  | 45 => (unname? characters).bind ofHyphenated?
  | _ => none

/-- The canonical text: lowercase, in five groups. -/
def canonical (uuid : Uuid) : String :=
  String.ofList (hyphenate groups (hexOfOctets uuid.octets))

/-- The UUID whose octets are all zero identifies nothing. -/
def isNil (uuid : Uuid) : Bool :=
  uuid.octets.all (· == 0)

/-- Two digits for each octet. -/
theorem length_hexOfOctets (octets : List UInt8) :
    (hexOfOctets octets).length = 2 * octets.length := by
  induction octets with
  | nil => rfl
  | cons octet octets inductionHypothesis =>
    show (hexDigit _ :: hexDigit _ :: hexOfOctets octets).length = _
    simp only [List.length_cons, inductionHypothesis]
    omega

/-- Digits that were put into groups are found again. -/
theorem unhyphenate?_hyphenate (sizes : List Nat) (digits : List Char)
    (whole : digits.length = total sizes) :
    unhyphenate? sizes (hyphenate sizes digits) = some digits := by
  induction sizes generalizing digits with
  | nil =>
    have empty : digits = [] := List.length_eq_zero_iff.mp (by simpa using whole)
    subst empty
    rfl
  | cons size sizes inductionHypothesis =>
    cases sizes with
    | nil =>
      have same : digits.length = size := by simpa using whole
      simp [hyphenate, unhyphenate?, same]
    | cons next sizes =>
      have enough : size ≤ digits.length := by rw [whole, total_cons]; omega
      have cut : (digits.take size).length = size := by simp [enough]
      have rest : (digits.drop size).length = total (next :: sizes) := by
        rw [List.length_drop, whole, total_cons]
        omega
      have dropped : (hyphenate (size :: next :: sizes) digits).drop size =
          '-' :: hyphenate (next :: sizes) (digits.drop size) := by
        simp [hyphenate, cut]
      have taken : (hyphenate (size :: next :: sizes) digits).take size = digits.take size := by
        simp [hyphenate, cut]
      simp only [unhyphenate?, dropped, taken, inductionHypothesis _ rest, Option.map_some,
        List.take_append_drop]

/-- The canonical text reads back. -/
theorem parse?_canonical (uuid : Uuid) : parse? uuid.canonical = some uuid := by
  have digits : (hexOfOctets uuid.octets).length = 32 := by
    rw [length_hexOfOctets, uuid.length_eq]
  have back : unhyphenate? groups (hyphenate groups (hexOfOctets uuid.octets)) =
      some (hexOfOctets uuid.octets) := unhyphenate?_hyphenate _ _ (by rw [digits]; rfl)
  have length : (hyphenate groups (hexOfOctets uuid.octets)).length = 36 := by
    simp [groups, hyphenate, digits]
  simp only [parse?, canonical, String.toList_ofList, length, ofHyphenated?, back, Option.bind_some,
    ofDigits?, octetsOfHex?_hexOfOctets, uuid.length_eq, ↓reduceDIte]

end Uuid

end VmFleet
