/-
This file holds internet addresses of both families and their text. A reader
takes what it can from the start of a text and returns the rest, so that the
larger formats (an address with a port, a report line) are put together from
the smaller ones. A written address has one form: groups without leading zeros,
the first longest run of at least two zero groups left out, and the tail of a
mapped address written with dots.
-/

import VmFleet.Text.Decimal
import VmFleet.Text.Hex
import VmFleet.Text.Reader

namespace VmFleet

open VmFleet.Text

/-! ### Four octets -/

/-- An address of the older family is four octets. -/
structure Ipv4 where
  first : UInt8
  second : UInt8
  third : UInt8
  fourth : UInt8
deriving DecidableEq, Repr

namespace Ipv4

/-- One to three digits without a leading zero that spell an octet. All digits
that stand there belong to the number, so a fourth digit refuses it. -/
def readOctet : Reader UInt8 := fun text =>
  let digits := text.takeWhile isDigit
  if digits.length > 3 ∨ (digits.length > 1 ∧ digits.head? = some '0') then none
  else
    match unsigned? 256 digits with
    | some value => some (UInt8.ofNat value, text.drop digits.length)
    | none => none

/-- Four octets joined by dots. -/
def read : Reader Ipv4 := fun text => do
  let (first, text) ← readOctet text
  let (_, text) ← readCharacter '.' text
  let (second, text) ← readOctet text
  let (_, text) ← readCharacter '.' text
  let (third, text) ← readOctet text
  let (_, text) ← readCharacter '.' text
  let (fourth, text) ← readOctet text
  some (⟨first, second, third, fourth⟩, text)

/-- Four numbers joined by dots. -/
def render (address : Ipv4) : String :=
  String.intercalate "."
    ([address.first, address.second, address.third, address.fourth].map (ofNat ·.toNat))

/-- The addresses that never leave the host. -/
def isLoopback (address : Ipv4) : Bool :=
  address.first == 127

end Ipv4

/-! ### Eight groups -/

/-- An address of the newer family is eight groups of sixteen bits. -/
structure Ipv6 where
  groups : List UInt16
  length_eq : groups.length = 8
deriving DecidableEq, Repr

namespace Ipv6

/-- One to four hexadecimal digits. A fifth digit refuses the group. -/
def readGroup : Reader UInt16 := fun text =>
  let digits := text.takeWhile fun character => (hexValue? character).isSome
  if digits.length > 4 ∨ digits.isEmpty then none
  else
    let value := digits.foldl
      (fun total character => 16 * total + (hexValue? character).getD 0) 0
    some (UInt16.ofNat value, text.drop digits.length)

/-- The colon that stands before every group but the first. -/
def readSeparator (leading : Bool) : Reader Unit := fun text =>
  if leading then some ((), text) else readCharacter ':' text

/-- Two octets as a group. -/
def joinOctets (high low : UInt8) : UInt16 :=
  UInt16.ofNat (256 * high.toNat + low.toNat)

/-- Up to the given number of groups joined by colons. An address of the older
family may end the row and then counts for two groups; the mark says that it
did. The row ends before the first thing that is no group. -/
def readGroups (leading : Bool) : Nat → List Char → List UInt16 × Bool × List Char
  | 0, text => ([], false, text)
  | limit + 1, text =>
    let dotted :=
      if limit = 0 then none
      else (readSeparator leading text).bind fun (_, rest) => Ipv4.read rest
    match dotted with
    | some (address, rest) =>
      ([joinOctets address.first address.second, joinOctets address.third address.fourth],
        true, rest)
    | none =>
      match (readSeparator leading text).bind fun (_, rest) => readGroup rest with
      | some (group, rest) =>
        let (groups, ended, rest) := readGroups false limit rest
        (group :: groups, ended, rest)
      | none => ([], false, text)

/-- The address with these groups, when they are eight. -/
def ofGroups? (groups : List UInt16) : Option Ipv6 :=
  if length_eq : groups.length = 8 then some ⟨groups, length_eq⟩ else none

/-- Eight groups, or fewer on both sides of two colons that stand for at least
one zero group. -/
def read : Reader Ipv6 := fun text =>
  let (front, ended, text) := readGroups true 8 text
  if front.length = 8 then (ofGroups? front).map (·, text)
  else if ended then none
  else do
    let (_, text) ← readCharacter ':' text
    let (_, text) ← readCharacter ':' text
    let (back, _, text) := readGroups true (7 - front.length) text
    let zeros := List.replicate (8 - front.length - back.length) 0
    let address ← ofGroups? (front ++ zeros ++ back)
    some (address, text)

/-- The length of the run of zero groups at the start. -/
def zerosAhead (groups : List UInt16) : Nat :=
  (groups.takeWhile (· == 0)).length

/-- Where the first longest run of zero groups starts, and its length. -/
def longestZeros : List UInt16 → Nat × Nat
  | [] => (0, 0)
  | group :: groups =>
    let here := zerosAhead (group :: groups)
    let (start, length) := longestZeros groups
    if length ≤ here then (0, here) else (start + 1, length)

/-- Hexadecimal text without leading zeros. -/
def renderGroup (group : UInt16) : String :=
  String.ofList (Nat.toDigits 16 group.toNat)

/-- Groups joined by colons. -/
def renderGroups (groups : List UInt16) : String :=
  String.intercalate ":" (groups.map renderGroup)

/-- The address of the older family that this one maps, when it maps one. -/
def mapped? (address : Ipv6) : Option Ipv4 :=
  match address.groups with
  | [0, 0, 0, 0, 0, 0xFFFF, high, low] =>
    some ⟨UInt8.ofNat (high.toNat / 256), UInt8.ofNat (high.toNat % 256),
      UInt8.ofNat (low.toNat / 256), UInt8.ofNat (low.toNat % 256)⟩
  | _ => none

/-- The canonical text. -/
def render (address : Ipv6) : String :=
  match address.mapped? with
  | some inner => "::ffff:" ++ inner.render
  | none =>
    let (start, length) := longestZeros address.groups
    if length > 1 then
      renderGroups (address.groups.take start) ++ "::" ++
        renderGroups (address.groups.drop (start + length))
    else renderGroups address.groups

/-- The one address that never leaves the host. -/
def isLoopback (address : Ipv6) : Bool :=
  address.groups == [0, 0, 0, 0, 0, 0, 0, 1]

end Ipv6

/-! ### Either family -/

/-- An address of either family. -/
inductive Ip
  | v4 (address : Ipv4)
  | v6 (address : Ipv6)
deriving DecidableEq, Repr

namespace Ip

/-- An address of the older family if one stands there, else of the newer. -/
def read : Reader Ip := fun text =>
  match Ipv4.read text with
  | some (address, rest) => some (.v4 address, rest)
  | none => (Ipv6.read text).map fun (address, rest) => (.v6 address, rest)

/-- The address that a whole text spells. -/
def parse? (text : List Char) : Option Ip :=
  match read text with
  | some (address, []) => some address
  | _ => none

/-- The canonical text. -/
def render : Ip → String
  | .v4 address => address.render
  | .v6 address => address.render

/-- The addresses that never leave the host. A mapped address is not one of
them, whatever it maps. -/
def isLoopback : Ip → Bool
  | .v4 address => address.isLoopback
  | .v6 address => address.isLoopback

end Ip

end VmFleet
