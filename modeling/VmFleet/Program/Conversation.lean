/-
This file holds what each command says to the daemon and prints. A command to
boot a machine settles everything that depends on the client before it asks for
the boot: the version, the identity, and the paths of the volumes. Removing
images prints each one as it goes, so what was printed stays true when a later
one fails.
-/

import VmFleet.Client.Listing
import VmFleet.Client.Session
import VmFleet.Client.Volume
import VmFleet.CommandLine.Command

namespace VmFleet.Program

open VmFleet.Client VmFleet.CommandLine

/-- Where a client stands. -/
structure Standpoint where
  tree : Tree
  place : Location
  environment : Environment

/-- The text of a settled path. -/
def Standpoint.settled (standpoint : Standpoint) (path : String) : Except FleetError String :=
  absolutize standpoint.tree standpoint.place (Path.ofString path)

/-- What a query prints about a machine. -/
def queried (runRoot : Path) (field : QueryField) (vm : Vm) : String :=
  if field.ip then vm.publicIp
  else if field.tty then (Layout.console runRoot vm.uuid).display
  else if field.log then (Layout.log runRoot vm.uuid).display
  else vm.uuid

/-- The version that a request to boot means. -/
def versionFor {m : Type → Type} [Monad m] (link : Link m) (session : Session)
    (request : RunRequest) : Talk m String := do
  if request.version = latest then
    match latestVersion (← session.ask link .listImages) request.channel with
    | some version => pure version
    | none => throw (.imageNotFound request.channel latest)
  else pure request.version

/-- The draft of a request to boot, with everything settled. -/
def draftFor {m : Type → Type} [Monad m] (link : Link m) (standpoint : Standpoint)
    (session : Session) (request : RunRequest) : Talk m Vm := do
  let version ← versionFor link session request
  if request.uuid != Vm.randomUuid then
    let _ ← session.ask link (.identify request.uuid)
  let storage ← settle (request.attached.mapM standpoint.settled)
  let cdrom ← settle (request.cdrom.mapM standpoint.settled)
  pure (request.draft version storage cdrom)

/-- The versions that a command to remove images means. -/
def doomed (images : List ChannelImages) (channel : String) (version : Option String)
    (old : Bool) : List String :=
  if old then oldVersions images channel
  else
    match version with
    | some version =>
      if version = latest then (latestVersion images channel).toList else [version]
    | none => (latestVersion images channel).toList

/-- Carry a command out over a session. The start of a daemon is no matter of a
session. -/
def converse {m : Type → Type} [Monad m] (link : Link m) (standpoint : Standpoint)
    (config : Config) (command : Command) : Talk m Unit := do
  match command with
  | .serverStart => pure ()
  | .serverStop =>
    let session ← Session.start link config
    printLine (← session.ask link .stopServer)
  | .status =>
    let session ← Session.start link config
    printLine (session.info.status (← session.ask link .listVms).length)
  | .ps json all =>
    let session ← Session.start link config
    let vms ← session.ask link .listVms
    if json then printLine (vmsJson vms) else print (table vms all)
  | .query target field =>
    let session ← Session.start link config
    match findVm (← session.ask link .listVms) target with
    | some vm => printLine (queried (config.runPath standpoint.environment) field vm)
    | none => throw (.validation ("no VM matches '" ++ target ++ "'"))
  | .run request =>
    let session ← Session.start link config
    let vm ← session.ask link (.run (← draftFor link standpoint session request))
    printLine (String.intercalate " " [vm.name, vm.uuid, vm.publicIp])
  | .kill targets all =>
    if targets.isEmpty && !all then
      throw (.validation "name the VMs to halt or pass --all")
    let session ← Session.start link config
    for uuid in ← session.ask link (.stop targets) do printLine uuid
  | .imagesList channel all json =>
    let session ← Session.start link config
    let shown := browse (← session.ask link .listImages) channel all
    if json then printLine (imagesJson shown)
    else for line in imageLines shown do printLine line
  | .imagesRemove channel version old =>
    let session ← Session.start link config
    let images ← session.ask link .listImages
    for version in doomed images channel version old do
      let _ ← session.ask link (.removeImage channel version)
      printLine ("removed " ++ channel ++ "/" ++ version)

end VmFleet.Program
