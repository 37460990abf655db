/-
This file holds the store of images on disk. A store is laid out as one directory
per channel with one directory per version, and the files say what there is: a
scan computes the index anew every time. A version directory is usable when it
was changed after the cutoff and holds every artifact; the scan takes every other
version directory away as it meets it, and leaves everything else alone.
-/

import VmFleet.Files.Change
import VmFleet.Files.Layout
import VmFleet.Images.Index

namespace VmFleet

/-- Where images are kept, which channels count, which files make an image whole,
and the instant up to which an image is too old. -/
structure ImageStore where
  root : Path
  channels : List String
  artifacts : List String
  staleBefore : Timestamp
deriving Repr

/-- A request on files that may end in an error of the fleet. -/
abbrev FileRequest := TreeRequest FleetError

/-- A request on files whose refusal is reported as what was being done. -/
def FileRequest.doing {α : Type} (context : String) (request : TreeRequest Cause α) :
    FileRequest α :=
  request.explain (FleetError.io context)

namespace ImageStore

open TreeRequest

/-- The artifacts of an image, unless the configuration names others. -/
def defaultArtifacts : List String := ["vmlinuz", "initrd.cpio.gz"]

/-- The channels of a store, unless the configuration names others. -/
def defaultChannels : List String := ["alpha", "beta", "stable"]

/-- The second from which on images have the present layout. -/
def formatBreak : UInt64 := 1461110400

/-- The directory of a version. -/
def versionDirectory (store : ImageStore) (channel version : String) : Path :=
  Layout.imageDirectory store.root channel version

/-- Make one directory for each channel. -/
def makeLayout (store : ImageStore) : FileRequest Unit :=
  store.channels.forM fun channel =>
    let directory := store.root.child channel
    FileRequest.doing ("creating " ++ directory.display) (makePath [] directory)

/-- Whether every artifact is a file in a directory. -/
def isComplete (store : ImageStore) (tree : Tree) (directory : Path) : Bool :=
  store.artifacts.all fun artifact => tree.isFile [] (directory.child artifact)

/-- The version a file name stands for. -/
def versionOf? (name : FileName) : Option Version :=
  (Text.decode? name).bind Version.parse?

/-- Judge one entry of a channel: keep a usable version, take an unusable one
away, and pass over whatever is no version directory. -/
def judge (store : ImageStore) (directory : Path) (location : Location) (name : FileName) :
    FileRequest (Option Version) := do
  match ← inspect fun tree => .ok (tree.find? (name :: location)), versionOf? name with
  | some (.directory modified), some version =>
    let path := directory.join ⟨name⟩
    let complete ← inspect fun tree => .ok (store.isComplete tree path)
    if store.staleBefore.isBefore modified && complete then pure (some version)
    else
      FileRequest.doing ("removing " ++ path.display) (removeAll [] path)
      pure none
  | _, _ => pure none

/-- The versions of one channel. A channel without a directory has none. -/
def scanChannel (store : ImageStore) (channel : String) : FileRequest (List Version) := do
  let directory := store.root.child channel
  match ← attempt (inspect (·.listing [] directory)) with
  | .error .noEntry => pure []
  | .error cause => throw (.io ("reading " ++ directory.display) cause)
  | .ok (location, names) =>
    let versions ← names.mapM (store.judge directory location)
    pure (Version.ascending (versions.filterMap id))

/-- Compute the index of the whole store, one channel after the other. The first
channel that cannot be read ends the scan. -/
def scan (store : ImageStore) : FileRequest ImageIndex :=
  store.channels.foldlM
    (fun index channel => do
      let versions ← store.scanChannel channel
      pure (index.insert channel versions))
    Keyed.empty

/-- Take the directory of one version away. One that is gone already is no error. -/
def deleteVersion (store : ImageStore) (channel : String) (version : Version) :
    FileRequest Unit := do
  let directory := store.versionDirectory channel version.render
  match ← attempt (removeAll [] directory) with
  | .ok () => pure ()
  | .error .noEntry => pure ()
  | .error cause => throw (.io ("removing " ++ directory.display) cause)

end ImageStore

end VmFleet
