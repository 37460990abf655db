/-
This file finds an identity for a new machine. The candidates are the requested
identity in canonical form and then drawn ones, eight in all. The first that is
no placeholder, is free and has a hardware address is taken. Each candidate is
asked for its address at most once and none after an address was found.
-/

import VmFleet.Registry.Basic

namespace VmFleet

/-- An identity with the hardware address derived from it. -/
structure Identity where
  mac : String
  uuid : String
deriving DecidableEq, Repr

/-- Derives the hardware address of an identity. The number says how many
derivations came before, so that one that fails for a while can be described. -/
abbrev MacSource := Nat → String → Except FleetError String

namespace MacSource

/-- Derivation from the octets of the identity. -/
def ofOctets : MacSource := fun _ uuid =>
  (Mac.derive uuid).mapError (FleetError.ofMacRefusal uuid)

/-- The same derivation after a number of failures. -/
def failingFirst (failures : Nat) : MacSource := fun asked uuid =>
  if asked < failures then .error (.validation "no address") else ofOctets asked uuid

end MacSource

/-- What a search for an identity did: which candidates were asked for their
address, how many identities were drawn, and how it ended. -/
structure IdentitySearch where
  asked : List String
  drawn : Nat
  outcome : Except FleetError Identity

namespace Registry

/-- How many candidates one request may try. -/
def maxIdentityAttempts : Nat := 8

/-- The canonical text of an identity; a text that spells none stays as it is. -/
def normalize (requested : String) : String :=
  match Uuid.parse? requested with
  | some uuid => uuid.canonical
  | none => requested

/-- Try a candidate and, while attempts are left, the identities drawn after it. -/
def tryCandidates (registry : Registry) (macs : MacSource) (draws : Nat → Uuid) :
    Nat → Nat → List String → String → IdentitySearch
  | 0, drawn, asked, _ => ⟨asked, drawn, .error (.identityExhausted maxIdentityAttempts)⟩
  | attempts + 1, drawn, asked, candidate =>
    let next := fun asked =>
      tryCandidates registry macs draws attempts (drawn + 1) asked (draws drawn).canonical
    if candidate = Vm.randomUuid ∨ registry.contains candidate then next asked
    else
      match macs asked.length candidate with
      | .ok mac => ⟨asked ++ [candidate], drawn, .ok ⟨mac, candidate⟩⟩
      | .error _ => next (asked ++ [candidate])

/-- Find the identity a new machine will have. -/
def resolveIdentity (registry : Registry) (macs : MacSource) (draws : Nat → Uuid)
    (requested : String) : IdentitySearch :=
  tryCandidates registry macs draws maxIdentityAttempts 0 [] (normalize requested)

end Registry

end VmFleet
