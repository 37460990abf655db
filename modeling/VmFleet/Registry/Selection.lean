/-
This file chooses machines and asks them to end. A target names a machine by its
identity or by its name; an identity wins over a name, and of several machines
of one name the oldest is meant. Asking a machine to end cancels its token and
leaves its entry in place: only the end of its process takes that away.
-/

import VmFleet.Registry.Basic

namespace VmFleet

namespace Registry

/-- The identity a target means. -/
def matchTarget? (registry : Registry) (target : String) : Option String :=
  match registry.find? target with
  | some vm => some vm.uuid
  | none => (registry.snapshot.find? (·.name == target)).map (·.uuid)

/-- The identities in order of first mention, each once. -/
def firstMentions (identities : List String) : List String :=
  identities.foldl
    (fun mentioned uuid => if mentioned.contains uuid then mentioned else mentioned ++ [uuid]) []

/-- The identities that the targets mean; no targets mean every machine. -/
def select (registry : Registry) (targets : List String) : List String :=
  if targets.isEmpty then registry.active.keys
  else firstMentions (targets.filterMap registry.matchTarget?)

/-- Ask the machine of one identity to end. -/
def haltOne (registry : Registry) (uuid : String) : Registry :=
  match registry.active.find? uuid with
  | none => registry
  | some entry =>
    let moved :=
      if entry.vm.state.canMove .halting then
        registry.update uuid fun vm => { vm with state := .halting }
      else registry
    moved.cancel entry.halt

/-- Ask machines to end. Gives the identities that were there to be asked. -/
def halt (registry : Registry) (identities : List String) : Registry × List String :=
  (identities.foldl haltOne registry, identities.filter registry.contains)

end Registry

end VmFleet
