/-
This file checks configurations. The rules are taken in a fixed order and the
first one that is broken is reported: the endpoint, the channels, the artifacts,
the runner, the memory bounds, the share of the host, and the times.
-/

import VmFleet.Address.Socket
import VmFleet.Config.Basic

namespace VmFleet.Config

open VmFleet.Text

/-- A broken rule. -/
def complain {α : Type} (complaint : String) : Except FleetError α :=
  .error (.validation complaint)

/-- The endpoint the daemon listens on. -/
def endpoint (config : Config) : Except FleetError Socket :=
  match Socket.parse? config.listen with
  | some socket => .ok socket
  | none => complain ("listen must be an ip:port pair (got '" ++ config.listen ++ "')")

/-- Letters and digits. -/
def isAlphanumeric (character : Char) : Bool :=
  isDigit character || ('a' ≤ character && character ≤ 'z') ||
    ('A' ≤ character && character ≤ 'Z')

/-- The characters of a channel name. -/
def isNameCharacter (character : Char) : Bool :=
  isAlphanumeric character || character == '.' || character == '_' || character == '-'

/-- A channel name starts with a letter or a digit. -/
def isChannelName (name : String) : Bool :=
  name.toList.head?.any isAlphanumeric && name.toList.all isNameCharacter

/-- An artifact is named by one name, not by a path. -/
def isPlainName (name : String) : Bool :=
  name != "" && !name.toList.contains '/'

/-- The daemon listens on the host itself only. -/
def checkEndpoint (config : Config) : Except FleetError Unit := do
  let socket ← config.endpoint
  if socket.ip.isLoopback then pure ()
  else complain ("listen must be a loopback address (got '" ++ socket.render ++ "')")

/-- There is a channel, and every one has a name that is one. -/
def checkChannels (config : Config) : Except FleetError Unit :=
  if config.channelNames.isEmpty then complain "at least one channel is required"
  else
    match config.channelNames.find? fun name => !isChannelName name with
    | some name =>
      complain ("channel name must match [a-zA-Z0-9][a-zA-Z0-9._-]* (got '" ++ name ++ "')")
    | none => pure ()

/-- There is an artifact, and every one has a plain name. -/
def checkArtifacts (config : Config) : Except FleetError Unit :=
  if config.artifactNames.isEmpty then complain "images.artifacts must name at least one file"
  else
    match config.artifactNames.find? fun name => !isPlainName name with
    | some name =>
      complain ("images.artifacts entries must be plain file names (got '" ++ name ++ "')")
    | none => pure ()

/-- The memory bounds are a range of positive numbers. -/
def checkMemory (config : Config) : Except FleetError Unit :=
  if config.minMemoryMb = 0 ∨ config.maxMemoryMb < config.minMemoryMb then
    complain ("resources.min_memory_mb (" ++ ofNat config.minMemoryMb.toNat ++
      ") must be positive and not above max_memory_mb (" ++ ofNat config.maxMemoryMb.toNat ++ ")")
  else pure ()

/-- The share of the host is a share. -/
def checkShare (config : Config) : Except FleetError Unit :=
  if config.hostSharePercent = 0 ∨ 100 < config.hostSharePercent then
    complain "resources.host_memory_share_pct must be within 1..=100"
  else pure ()

/-- A boot gets time, and a client waits longer than a boot may take. -/
def checkTimes (config : Config) : Except FleetError Unit :=
  if config.bootSeconds = 0 then complain "timeouts.boot_s must be at least 1"
  else if config.callSeconds ≤ config.bootSeconds then
    complain "timeouts.call_s must exceed timeouts.boot_s"
  else pure ()

/-- Check every rule in order. -/
def validate (config : Config) : Except FleetError Unit := do
  config.checkEndpoint
  config.checkChannels
  config.checkArtifacts
  if config.runner = "" then complain "runner must not be empty"
  config.checkMemory
  config.checkShare
  config.checkTimes

end VmFleet.Config
