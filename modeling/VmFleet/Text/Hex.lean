/-
This file writes octets as two lowercase hexadecimal digits and reads them back
in either letter case. Reading is the inverse of writing: `octetsOfHex?_hexOfOctets`.
-/

namespace VmFleet.Text

/-- The lowercase digit of a value below sixteen. -/
def hexDigit (value : Nat) : Char :=
  if value < 10 then Char.ofNat ('0'.toNat + value) else Char.ofNat ('a'.toNat + (value - 10))

/-- The value of a hexadecimal digit in either letter case. -/
def hexValue? (character : Char) : Option Nat :=
  if '0' ≤ character ∧ character ≤ '9' then some (character.toNat - '0'.toNat)
  else if 'a' ≤ character ∧ character ≤ 'f' then some (character.toNat - 'a'.toNat + 10)
  else if 'A' ≤ character ∧ character ≤ 'F' then some (character.toNat - 'A'.toNat + 10)
  else none

/-- An octet as two digits, the higher one first. -/
def hexOfOctet (octet : UInt8) : List Char :=
  [hexDigit (octet.toNat / 16), hexDigit (octet.toNat % 16)]

/-- Octets as digits without separators. -/
def hexOfOctets (octets : List UInt8) : List Char :=
  octets.flatMap hexOfOctet

/-- The octets that pairs of digits spell; an odd digit out is refused. -/
def octetsOfHex? : List Char → Option (List UInt8)
  | [] => some []
  | [_] => none
  | high :: low :: text => do
    let high ← hexValue? high
    let low ← hexValue? low
    let octets ← octetsOfHex? text
    some (UInt8.ofNat (16 * high + low) :: octets)

/-- A digit that was written is read back. -/
theorem hexValue?_hexDigit {value : Nat} (small : value < 16) :
    hexValue? (hexDigit value) = some value := by
  have all : ∀ candidate : Fin 16, hexValue? (hexDigit candidate.val) = some candidate.val := by
    decide
  exact all ⟨value, small⟩

/-- Octets that were written are read back. -/
theorem octetsOfHex?_hexOfOctets (octets : List UInt8) :
    octetsOfHex? (hexOfOctets octets) = some octets := by
  induction octets with
  | nil => rfl
  | cons octet octets inductionHypothesis =>
    have bound : octet.toNat < 256 := octet.toNat_lt
    have high : octet.toNat / 16 < 16 := by omega
    have low : octet.toNat % 16 < 16 := by omega
    have whole : UInt8.ofNat (16 * (octet.toNat / 16) + octet.toNat % 16) = octet := by
      rw [Nat.div_add_mod, UInt8.ofNat_toNat]
    show octetsOfHex? (hexDigit _ :: hexDigit _ :: hexOfOctets octets) = _
    simp only [octetsOfHex?, hexValue?_hexDigit high, hexValue?_hexDigit low, inductionHypothesis,
      Option.bind_eq_bind, Option.bind_some, whole]

end VmFleet.Text
