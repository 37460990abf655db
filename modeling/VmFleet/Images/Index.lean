/-
This file holds the index of the images that a store offers: for each channel its
versions from the earliest to the latest. Versions are taken out by their exact
text, so another spelling of a version never matches.
-/

import VmFleet.Error
import VmFleet.Keyed
import VmFleet.Release.Version

namespace VmFleet

/-- One channel as a listing shows it: the texts of its versions in order. -/
structure ChannelImages where
  channel : String
  versions : List String
deriving DecidableEq, Repr

/-- The versions of every channel. -/
abbrev ImageIndex := Keyed (List Version)

namespace ImageIndex

/-- The error for a version that no channel lists. -/
def notListed (channel version : String) : FleetError :=
  .imageNotFound channel version

/-- Take one version out of a channel by its text. -/
def take (index : ImageIndex) (channel version : String) :
    Except FleetError (Version × ImageIndex) :=
  match index.find? channel with
  | none => .error (notListed channel version)
  | some versions =>
    match versions.find? (·.render == version) with
    | none => .error (notListed channel version)
    | some taken =>
      .ok (taken, index.insert channel (versions.eraseP (·.render == version)))

/-- The listing of an index. -/
def listing (index : ImageIndex) : List ChannelImages :=
  index.rows.map fun (channel, versions) => ⟨channel, versions.map (·.render)⟩

end ImageIndex

end VmFleet
