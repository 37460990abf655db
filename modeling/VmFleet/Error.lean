/-
This file holds the errors of the fleet. Each constructor is a cause with what is
needed to report it; the wording lies in one function. An error may have a
reason given by the operating system beneath it, and what travels to a client is
the wording followed by that reason.
-/

import VmFleet.Files.Cause
import VmFleet.Identity.Mac
import VmFleet.Text.Decimal

namespace VmFleet

open VmFleet.Text

/-- What can go wrong. -/
inductive FleetError
  | configLoad (path : String) (cause : Cause)
  | configParse (path : String) (detail : String)
  | validation (complaint : String)
  | io (context : String) (cause : Cause)
  | unreachable (address : String)
  | unresponsive (address operation : String)
  | alreadyRunning (pid : Nat)
  | insufficientPrivilege
  | bootTimeout (name : String) (seconds : Nat)
  | terminatedEarly (name : String)
  | spawnFailed (name : String) (reason : String)
  | identityExhausted (attempts : Nat)
  | resourceBound (requestedMb ceilingMb : Nat)
  | imageNotFound (channel version : String)
  | daemon (reason : String)
  | encode (reason : String)
deriving DecidableEq, Repr

namespace FleetError

/-- How an error reads. -/
def message : FleetError → String
  | configLoad path _ => "failed to load config from " ++ path
  | configParse path detail => "failed to parse config from " ++ path ++ ": " ++ detail
  | validation complaint => "validation error: " ++ complaint
  | io context _ => context
  | unreachable address => "no daemon answering on " ++ address
  | unresponsive address operation =>
    "daemon on " ++ address ++ " did not answer '" ++ operation ++ "' in time"
  | alreadyRunning pid => "daemon already running (pid " ++ ofNat pid ++ ")"
  | insufficientPrivilege => "not enough privileges to start the daemon"
  | bootTimeout name seconds =>
    "unable to grab the address of VM '" ++ name ++ "' after " ++ ofNat seconds ++ "s, aborted"
  | terminatedEarly name =>
    "VM '" ++ name ++ "' terminated abnormally before reporting an address"
  | spawnFailed name reason => "failed to spawn runner for VM '" ++ name ++ "': " ++ reason
  | identityExhausted attempts =>
    "unable to find a usable UUID after " ++ ofNat attempts ++ " attempts"
  | resourceBound requestedMb ceilingMb =>
    "aggregated VM memory would reach " ++ ofNat requestedMb ++ "MB, above the " ++
      ofNat ceilingMb ++ "MB ceiling"
  | imageNotFound channel version =>
    "image " ++ channel ++ "/" ++ version ++ " is not available locally"
  | daemon reason => "daemon error: " ++ reason
  | encode reason => "failed to encode output: " ++ reason

/-- The reason beneath an error. -/
def cause? : FleetError → Option Cause
  | configLoad _ cause => some cause
  | io _ cause => some cause
  | _ => none

/-- What a person can do about an error. -/
def advice? : FleetError → Option String
  | unreachable _ => some "start it with `sudo flotilla server start`"
  | insufficientPrivilege => some "run it with sudo"
  | _ => none

/-- The text of an error on its way to a client: the wording, and after a colon
the reason beneath it. -/
def flatten (error : FleetError) : String :=
  match error.cause? with
  | some cause => error.message ++ ": " ++ cause.message
  | none => error.message

/-- The error for a UUID that has no hardware address. -/
def ofMacRefusal (uuid : String) : Mac.Refusal → FleetError
  | .notUuid => validation ("'" ++ uuid ++ "' is not a valid UUID")
  | .nilUuid => validation "the nil UUID cannot identify a VM"

end FleetError

end VmFleet
