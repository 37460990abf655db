/-
This file holds an address with a port, the form of the daemon's endpoint. An
address of the newer family stands in brackets, since colons join its groups,
and may name a zone by number; zone zero means none and is not written.
-/

import VmFleet.Address.Ip

namespace VmFleet

open VmFleet.Text

/-- An address, a zone for the newer family, and a port. -/
structure Socket where
  ip : Ip
  zone : Nat
  port : UInt16
deriving DecidableEq, Repr

namespace Socket

/-- Digits that spell a number below the bound; leading zeros are allowed. -/
def readNumber (bound : Nat) : Reader Nat := fun text =>
  let digits := text.takeWhile isDigit
  match decimal? digits with
  | some value => if value < bound then some (value, text.drop digits.length) else none
  | none => none

/-- The zone after a percent sign, or no zone where none is written. -/
def readZone : Reader Nat := fun text =>
  match readCharacter '%' text with
  | some (_, rest) => readNumber word32 rest
  | none => some (0, text)

/-- An address of the older family and a port. -/
def readV4 : Reader Socket := fun text => do
  let (address, text) ← Ipv4.read text
  let (_, text) ← readCharacter ':' text
  let (port, text) ← readNumber 65536 text
  some (⟨.v4 address, 0, UInt16.ofNat port⟩, text)

/-- An address of the newer family in brackets and a port. -/
def readV6 : Reader Socket := fun text => do
  let (_, text) ← readCharacter '[' text
  let (address, text) ← Ipv6.read text
  let (zone, text) ← readZone text
  let (_, text) ← readCharacter ']' text
  let (_, text) ← readCharacter ':' text
  let (port, text) ← readNumber 65536 text
  some (⟨.v6 address, zone, UInt16.ofNat port⟩, text)

/-- The endpoint that a whole text spells. -/
def parse? (text : String) : Option Socket :=
  match readV4 text.toList with
  | some (socket, []) => some socket
  | some _ => none
  | none =>
    match readV6 text.toList with
    | some (socket, []) => some socket
    | _ => none

/-- The canonical text. -/
def render (socket : Socket) : String :=
  let port := ofNat socket.port.toNat
  match socket.ip with
  | .v4 address => address.render ++ ":" ++ port
  | .v6 address =>
    let zone := if socket.zone = 0 then "" else "%" ++ ofNat socket.zone
    "[" ++ address.render ++ zone ++ "]:" ++ port

end Socket

end VmFleet
