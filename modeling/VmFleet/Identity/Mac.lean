/-
This file derives hardware addresses from UUIDs. The first six octets give the
address; the first octet is marked as locally administered and as addressed to
one station, so a derived address never collides with a maker's or a group's.
-/

import VmFleet.Identity.Uuid

namespace VmFleet

open VmFleet.Text

namespace Mac

/-- The first octet with the local bit set and the group bit clear. -/
def localUnicast (octet : UInt8) : UInt8 :=
  (octet ||| 0x02) &&& 0xFE

/-- The six octets of the address of a UUID. -/
def octetsOfUuid (uuid : Uuid) : List UInt8 :=
  match uuid.octets with
  | first :: rest => localUnicast first :: rest.take 5
  | [] => []

/-- Octets as pairs of digits joined by colons. -/
def text (octets : List UInt8) : String :=
  String.ofList ((octets.map hexOfOctet).intersperse [':']).flatten

/-- Why a UUID text has no address. -/
inductive Refusal
  | notUuid
  | nilUuid
deriving DecidableEq, Repr

/-- The address of the UUID that a text spells. The nil UUID has none, since it
cannot tell one machine from another. -/
def derive (uuid : String) : Except Refusal String :=
  match Uuid.parse? uuid with
  | none => .error .notUuid
  | some parsed => if parsed.isNil then .error .nilUuid else .ok (text (octetsOfUuid parsed))

end Mac

end VmFleet
