/-
This file passes between octets and text. The reader is a machine over octets
that owes a number of continuation octets and knows the range of the next one.
Read strictly, one wrong octet refuses the whole; read leniently, every maximal
run that starts a character and does not end it becomes one replacement
character, and so does every octet that starts none.
-/

namespace VmFleet.Text

/-- The octets of a text. -/
def octetsOf (text : String) : List UInt8 :=
  text.toUTF8.toList

/-- The start of a character: how many continuation octets it owes, the range
of the next one, and the value of its own bits. -/
structure Lead where
  owed : Nat
  lowest : UInt8
  highest : UInt8
  value : Nat

/-- The start that an octet makes, when it makes one. -/
def Lead.ofOctet? (octet : UInt8) : Option Lead :=
  let value := octet.toNat
  if octet < 0x80 then some ⟨0, 0x80, 0xBF, value⟩
  else if octet < 0xC2 then none
  else if octet < 0xE0 then some ⟨1, 0x80, 0xBF, value - 0xC0⟩
  else if octet = 0xE0 then some ⟨2, 0xA0, 0xBF, value - 0xE0⟩
  else if octet = 0xED then some ⟨2, 0x80, 0x9F, value - 0xE0⟩
  else if octet < 0xF0 then some ⟨2, 0x80, 0xBF, value - 0xE0⟩
  else if octet = 0xF0 then some ⟨3, 0x90, 0xBF, value - 0xF0⟩
  else if octet < 0xF4 then some ⟨3, 0x80, 0xBF, value - 0xF0⟩
  else if octet = 0xF4 then some ⟨3, 0x80, 0x8F, value - 0xF0⟩
  else none

/-- The character that stands for octets that are none. -/
def replacement : Char := Char.ofNat 0xFFFD

/-- The pieces of an octet sequence in order: characters, and a mark for every
maximal run that is none. The argument before the octets is the character under
way, if any. -/
def pieces : Option Lead → List UInt8 → List (Option Char)
  | none, [] => []
  | some _, [] => [none]
  | none, octet :: octets =>
    match Lead.ofOctet? octet with
    | none => none :: pieces none octets
    | some lead =>
      if lead.owed = 0 then some (Char.ofNat lead.value) :: pieces none octets
      else pieces (some lead) octets
  | some lead, octet :: octets =>
    if lead.lowest ≤ octet ∧ octet ≤ lead.highest then
      let value := 64 * lead.value + (octet.toNat - 0x80)
      if lead.owed ≤ 1 then some (Char.ofNat value) :: pieces none octets
      else pieces (some ⟨lead.owed - 1, 0x80, 0xBF, value⟩) octets
    else
      match Lead.ofOctet? octet with
      | none => none :: none :: pieces none octets
      | some next =>
        if next.owed = 0 then none :: some (Char.ofNat next.value) :: pieces none octets
        else none :: pieces (some next) octets

/-- The text of the octets, when every one of them belongs to a character. -/
def decode? (octets : List UInt8) : Option String :=
  ((pieces none octets).mapM id).map String.ofList

/-- The text of the octets, with a replacement for whatever is no character. -/
def decodeLossy (octets : List UInt8) : String :=
  String.ofList ((pieces none octets).map (·.getD replacement))

end VmFleet.Text
