/-
This file proves that an address of four octets has one text. The digits of an octet are all
digits that stand there, they are not padded and their number is below 256, so they are the
digits that the octet is written with. A reader therefore takes what the writer wrote, with
whatever follows that does not go on with a digit, and nothing else.
-/

import VmFleet.Address.Ip
import VmFleet.Proofs.Text.Decimal
import VmFleet.Proofs.Text.Run

namespace VmFleet

open VmFleet.Text

namespace Ipv4

/-- The digits that an octet is written with. -/
def octetDigits (octet : UInt8) : List Char :=
  Nat.toDigits 10 octet.toNat

/-- The digits of an octet are few, not padded and read as the octet. -/
theorem readable_octetDigits (octet : UInt8) :
    (octetDigits octet).all isDigit = true ∧
      ¬((octetDigits octet).length > 3 ∨
        ((octetDigits octet).length > 1 ∧ (octetDigits octet).head? = some '0')) ∧
      unsigned? 256 (octetDigits octet) = some octet.toNat := by
  have all : ∀ value : Fin 256, (Nat.toDigits 10 value.val).all isDigit = true ∧
        ¬((Nat.toDigits 10 value.val).length > 3 ∨
          ((Nat.toDigits 10 value.val).length > 1 ∧
            (Nat.toDigits 10 value.val).head? = some '0')) ∧
        unsigned? 256 (Nat.toDigits 10 value.val) = some value.val := by
    decide +kernel
  exact all ⟨octet.toNat, octet.toNat_lt⟩

/-- An octet is read where its digits stand and no digit follows. -/
theorem readOctet_eq_some_iff {text rest : List Char} {octet : UInt8} :
    readOctet text = some (octet, rest) ↔
      text = octetDigits octet ++ rest ∧ EndsRun isDigit rest := by
  constructor
  · intro read
    unfold readOctet at read
    simp only at read
    split at read
    · cases read
    rename_i unpadded
    split at read
    · rename_i value spelt
      obtain ⟨rfl, after⟩ := Prod.mk.inj (Option.some.inj read)
      obtain ⟨whole, digits, ends⟩ := takeWhile_drop_iff.mp ⟨rfl, after⟩
      rw [unsigned?_of_digits 256 digits] at spelt
      obtain ⟨number, decimal, bounded⟩ := Option.bind_eq_some_iff.mp spelt
      split at bounded
      · rename_i small
        obtain rfl := Option.some.inj bounded
        unfold decimal? at decimal
        split at decimal
        · cases decimal
        rename_i nonempty
        have written := toDigits_of_decimalFrom? (by simpa using nonempty)
          (fun long zero => unpadded (.inr ⟨long, zero⟩)) decimal
        have same : (UInt8.ofNat number).toNat = number := UInt8.toNat_ofNat_of_lt' small
        refine ⟨?_, ends⟩
        rw [octetDigits, same, written]
        exact whole
      · cases bounded
    · cases read
  · rintro ⟨rfl, ends⟩
    obtain ⟨digits, unpadded, value⟩ := readable_octetDigits octet
    obtain ⟨taken, dropped⟩ := takeWhile_drop_iff.mpr ⟨rfl, List.all_eq_true.mp digits, ends⟩
    unfold readOctet
    simp only [taken, dropped]
    rw [if_neg unpadded, value]
    simp only [UInt8.ofNat_toNat]

theorem toList_render (address : Ipv4) :
    address.render.toList =
      octetDigits address.first ++ '.' :: (octetDigits address.second ++
        '.' :: (octetDigits address.third ++ '.' :: octetDigits address.fourth)) := by
  unfold render
  rw [String.toList_intercalate]
  simp only [List.map_cons, List.map_nil, toList_ofNat]
  simp [List.intercalate_cons_cons, octetDigits]

/-- An address of four octets is read where its text stands and no digit follows. -/
theorem read_eq_some_iff {text rest : List Char} {address : Ipv4} :
    read text = some (address, rest) ↔
      text = address.render.toList ++ rest ∧ EndsRun isDigit rest := by
  have point (text : List Char) : EndsRun isDigit ('.' :: text) := endsRun_cons.mpr (by decide)
  rw [toList_render]
  unfold read
  constructor
  · intro found
    obtain ⟨⟨first, text₁⟩, one, found⟩ := Option.bind_eq_some_iff.mp found
    obtain ⟨⟨⟨⟩, text₂⟩, two, found⟩ := Option.bind_eq_some_iff.mp found
    obtain ⟨⟨second, text₃⟩, three, found⟩ := Option.bind_eq_some_iff.mp found
    obtain ⟨⟨⟨⟩, text₄⟩, four, found⟩ := Option.bind_eq_some_iff.mp found
    obtain ⟨⟨third, text₅⟩, five, found⟩ := Option.bind_eq_some_iff.mp found
    obtain ⟨⟨⟨⟩, text₆⟩, six, found⟩ := Option.bind_eq_some_iff.mp found
    obtain ⟨⟨fourth, text₇⟩, seven, found⟩ := Option.bind_eq_some_iff.mp found
    obtain ⟨rfl, rfl⟩ := Prod.mk.inj (Option.some.inj found)
    obtain ⟨rfl, -⟩ := readOctet_eq_some_iff.mp one
    obtain rfl := readCharacter_eq_some_iff.mp two
    obtain ⟨rfl, -⟩ := readOctet_eq_some_iff.mp three
    obtain rfl := readCharacter_eq_some_iff.mp four
    obtain ⟨rfl, -⟩ := readOctet_eq_some_iff.mp five
    obtain rfl := readCharacter_eq_some_iff.mp six
    obtain ⟨rfl, ends⟩ := readOctet_eq_some_iff.mp seven
    exact ⟨by simp, ends⟩
  · rintro ⟨rfl, ends⟩
    have octet {octet : UInt8} {rest : List Char} (ends : EndsRun isDigit rest) :
        readOctet (octetDigits octet ++ rest) = some (octet, rest) :=
      readOctet_eq_some_iff.mpr ⟨rfl, ends⟩
    have dot (rest : List Char) : readCharacter '.' ('.' :: rest) = some ((), rest) :=
      readCharacter_eq_some_iff.mpr rfl
    simp only [List.append_assoc, List.cons_append, octet (point _), octet ends, dot,
      Option.bind_eq_bind, Option.bind_some]

end Ipv4

end VmFleet
