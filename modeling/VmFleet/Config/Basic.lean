/-
This file holds the configuration of the daemon. What a file leaves out has a
default; some defaults depend on where a person keeps files and are looked up
only when the value is needed. Adding a duration to a time may leave the range in
which times can be told, and then there is no sum.
-/

import VmFleet.Images.Store
import VmFleet.Supervision.Settings

namespace VmFleet

open VmFleet.Text

/-- The configuration of the daemon. -/
structure Config where
  listen : String
  storeRoot : Option String
  runRoot : Option String
  runner : String
  channels : Option (List String)
  artifacts : Option (List String)
  /-- Images changed up to this second since 1970 are too old. -/
  staleBefore : UInt64
  bootSeconds : UInt64
  probeMilliseconds : UInt64
  callSeconds : UInt64
  reapGraceSeconds : UInt64
  minMemoryMb : UInt64
  maxMemoryMb : UInt64
  /-- The share of the memory of the host that all machines may claim. -/
  hostSharePercent : UInt64
  /-- A fixed ceiling in place of a share. -/
  maxTotalMb : Option UInt64
deriving DecidableEq, Repr

namespace Config

/-- Where the daemon listens unless the configuration says otherwise. -/
def defaultListen : String := "127.0.0.1:2511"

/-- The configuration without a file. -/
def standard : Config where
  listen := defaultListen
  storeRoot := none
  runRoot := none
  runner := "flotilla-runner"
  channels := none
  artifacts := none
  staleBefore := ImageStore.formatBreak
  bootSeconds := 30
  probeMilliseconds := 100
  callSeconds := 40
  reapGraceSeconds := 3
  minMemoryMb := 1024
  maxMemoryMb := 8192
  hostSharePercent := 66
  maxTotalMb := none

/-! ### Values in effect -/

/-- The channels of the store. -/
def channelNames (config : Config) : List String :=
  config.channels.getD ImageStore.defaultChannels

/-- The files that make an image whole. -/
def artifactNames (config : Config) : List String :=
  config.artifacts.getD ImageStore.defaultArtifacts

/-- Where images are kept. -/
def storePath (config : Config) (environment : Environment) : Path :=
  match config.storeRoot with
  | some root => Path.ofString root
  | none => environment.storeRoot

/-- Where running machines are kept. -/
def runPath (config : Config) (environment : Environment) : Path :=
  match config.runRoot with
  | some root => Path.ofString root
  | none => environment.runRoot

/-- The ceiling for the memory of all machines on a host with so many octets of
memory. The share is computed in words of 64 bits. -/
def ceilingMb (config : Config) (hostOctets : UInt64) : UInt64 :=
  match config.maxTotalMb with
  | some fixed => fixed
  | none => hostOctets / 1024 / 1024 * config.hostSharePercent / 100

/-- The limits of the daemon. -/
def settings (config : Config) (environment : Environment) (hostOctets : UInt64) : Settings where
  runRoot := config.runPath environment
  bootTimeout := config.bootSeconds
  reapGrace := config.reapGraceSeconds
  minMemoryMb := config.minMemoryMb
  maxMemoryMb := config.maxMemoryMb
  ceilingMb := config.ceilingMb hostOctets

/-! ### Times -/

/-- Times are told in whole seconds that fit 64 bits with a sign. -/
def timeLimit : Int := Int.ofNat signedLimit

/-- A time so many seconds later, if it can be told. -/
def later? (time : Int) (seconds : UInt64) : Option Int :=
  let sum := time + seconds.toNat
  if sum < timeLimit then some sum else none

/-- The instant up to which images are too old. -/
def cutoff? (config : Config) : Option Timestamp :=
  (later? 0 config.staleBefore).map (⟨·, 0⟩)

/-- The store of images, unless its cutoff cannot be told. -/
def store? (config : Config) (environment : Environment) : Option ImageStore :=
  config.cutoff?.map fun cutoff =>
    { root := config.storePath environment
      channels := config.channelNames
      artifacts := config.artifactNames
      staleBefore := cutoff }

end Config

end VmFleet
