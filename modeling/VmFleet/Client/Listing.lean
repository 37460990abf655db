/-
This file holds what a client makes of listings: it picks versions of a channel
and machines by target, and prints both. A listing is taken as it comes, so the
last version of a channel counts as the newest.
-/

import VmFleet.Images.Index
import VmFleet.Text.Json
import VmFleet.Vm.Record

namespace VmFleet.Client

open VmFleet.Text

/-! ### Images -/

/-- The versions of a channel, when it is listed. -/
def versionsOf? (images : List ChannelImages) (channel : String) : Option (List String) :=
  (images.find? (·.channel == channel)).map (·.versions)

/-- The newest version of a channel. -/
def latestVersion (images : List ChannelImages) (channel : String) : Option String :=
  (versionsOf? images channel).bind (·.getLast?)

/-- Every version of a channel but the newest. -/
def oldVersions (images : List ChannelImages) (channel : String) : List String :=
  ((versionsOf? images channel).getD []).dropLast

/-- The part of a listing that is shown: one channel, or all of them. -/
def browse (images : List ChannelImages) (channel : String) (all : Bool) : List ChannelImages :=
  if all then images else images.filter (·.channel == channel)

/-- A listing with one line for each version. -/
def imageLines (images : List ChannelImages) : List String :=
  images.flatMap fun shown => shown.versions.map fun version => shown.channel ++ "/" ++ version

/-- A listing in the JSON notation. -/
def imagesJson (images : List ChannelImages) : String :=
  Json.list (images.map fun shown =>
    Json.object
      [("channel", Json.text shown.channel),
        ("versions", Json.list (shown.versions.map Json.text))])

/-! ### Machines -/

/-- The machine a target means: an identity wins over a name. -/
def findVm (vms : List Vm) (target : String) : Option Vm :=
  (vms.find? (·.uuid == target)).or (vms.find? (·.name == target))

/-- A text filled with blanks on the right. -/
def padRight (width : Nat) (content : String) : String :=
  content ++ String.ofList (List.replicate (width - content.length) ' ')

/-- A text filled with blanks on the left. -/
def padLeft (width : Nat) (content : String) : String :=
  String.ofList (List.replicate (width - content.length) ' ') ++ content

/-- One line of the table of machines. -/
def tableLine (uuid name ip memory cpus state image : String) : String :=
  String.intercalate "  "
    [padRight 36 uuid, padRight 16 name, padRight 15 ip, padLeft 6 memory, padLeft 4 cpus,
      padRight 16 state, image] ++ "\n"

/-- The line of a machine. -/
def vmLine (vm : Vm) : String :=
  tableLine vm.uuid vm.name (if vm.publicIp = "" then "-" else vm.publicIp)
    (ofNat vm.memoryMb.toNat) (ofNat vm.cpus.toNat) vm.state.name (vm.channel ++ "/" ++ vm.version)

/-- The table of the running machines, or of all of them. -/
def table (vms : List Vm) (all : Bool) : String :=
  String.join <|
    tableLine "UUID" "NAME" "IP" "MEM" "CPUS" "STATE" "IMAGE" ::
      (vms.filter fun vm => all || vm.state == .running).map vmLine

/-- A machine in the JSON notation. -/
def vmJson (vm : Vm) : String :=
  Json.object
    [("uuid", Json.text vm.uuid), ("name", Json.text vm.name), ("mac_address", Json.text vm.mac),
      ("channel", Json.text vm.channel), ("version", Json.text vm.version),
      ("cpus", Json.number vm.cpus.toNat), ("memory_mb", Json.number vm.memoryMb.toNat),
      ("public_ip", Json.text vm.publicIp), ("pid", Json.number vm.pid),
      ("creation_time", Json.number vm.createdAt.toNat),
      ("storage", Json.list (vm.storage.map Json.text)), ("cdrom", Json.textOrNull vm.cdrom),
      ("extra_kernel_args", Json.text vm.kernelArgs),
      ("extra_runner_args", Json.list (vm.runnerArgs.map Json.text)),
      ("state", Json.text vm.state.recordName)]

/-- Machines in the JSON notation. -/
def vmsJson (vms : List Vm) : String :=
  Json.list (vms.map vmJson)

end VmFleet.Client
