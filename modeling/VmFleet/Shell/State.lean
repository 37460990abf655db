/-
This file holds the state of a running script: what it printed, what stands in
its log, its variables and traps, and when it is asked to end. A script may
jump: it ends, it is killed, or it leaves a loop. The log fills in two ways:
complaints go there at once, while printed lines are copied by somebody who
reads along, who has caught up whenever the script sleeps.
-/

import VmFleet.Runner.Output
import VmFleet.Shell.Arithmetic

namespace VmFleet.Shell

open VmFleet.Runner VmFleet.Text

/-- Where a descriptor leads. -/
inductive Sink
  | printed
  /-- To the command behind a pipe. -/
  | pipe
  | log
  | nowhere
deriving DecidableEq, Repr

/-- When a script is asked to end. -/
inductive Request
  | never
  /-- Before it does anything. -/
  | atOnce
  /-- Once it reported an address or can print no more. -/
  | onceReported
deriving DecidableEq, Repr

/-- A jump out of a script or a loop. -/
inductive Jump
  | exited (code : Nat)
  | killed
  | leave
  | again
deriving DecidableEq, Repr

/-- The state of a running script. -/
structure State where
  printed : List UInt8
  logged : List UInt8
  /-- How many octets of the printed lines were copied to the log. -/
  copied : Nat
  /-- What was sent into the innermost pipe that is open. -/
  piped : List UInt8
  /-- What a command that reads finds. -/
  waiting : List UInt8
  status : Nat
  bindings : List (String × String)
  /-- What is done at a signal; nothing at all is done for an empty script. -/
  traps : List (String × String)
  output : Sink
  complaints : Sink
  request : Request
  /-- Whether one that does not end when asked is killed without delay. -/
  impatient : Bool
  /-- The milliseconds since the script was asked to end. -/
  asked : Option Nat
deriving Repr

/-- A part of a run: it changes the state and may jump. -/
abbrev Run := ExceptT Jump (StateM State)

/-- How long a script may take to end when asked, in milliseconds. -/
def haltPatience : Nat := 10000

/-- The number under which a script knows itself. -/
def ownNumber : String := "4242"

namespace State

/-- A script that has not started yet. -/
def initial (request : Request) (impatient : Bool) : State where
  printed := []
  logged := []
  copied := 0
  piped := []
  waiting := []
  status := 0
  bindings := []
  traps := []
  output := .printed
  complaints := .log
  request
  impatient
  asked := none

/-- Write octets where a descriptor leads. -/
def write (state : State) (sink : Sink) (octets : List UInt8) : State :=
  match sink with
  | .printed => { state with printed := state.printed ++ octets }
  | .pipe => { state with piped := state.piped ++ octets }
  | .log => { state with logged := state.logged ++ octets }
  | .nowhere => state

/-- Copy lines to the log that are not there yet. -/
def copy (state : State) (lines : Followed) : State :=
  { state with
    logged := state.logged ++ lines.logged.drop state.copied
    copied := max state.copied lines.logged.length }

/-- Copy the printed lines that are complete. -/
def catchUp (state : State) : State :=
  state.copy (followSoFar state.printed)

/-- Whether the script can print no more. One that feeds a pipe prints when the pipe is closed. -/
def isSilent (state : State) : Bool :=
  [state.output, state.complaints].all fun sink => sink != .printed && sink != .pipe

/-- Whether it is time to ask the script to end. -/
def isDue (state : State) : Bool :=
  state.request == .onceReported && state.asked.isNone &&
    ((followSoFar state.printed).address.isSome || state.isSilent)

/-- Ask the script to end if it is time. -/
def ask (state : State) : State :=
  if state.isDue then { state with asked := some 0 } else state

/-- The state after so many milliseconds more, unless the script was asked to end and its time is
over by then. -/
def later? (state : State) (duration : Nat) : Option State :=
  match state.asked with
  | none => some state
  | some passed =>
    if state.impatient || haltPatience ≤ passed + duration then none
    else some { state with asked := some (passed + duration) }

/-- The text of a variable. -/
def lookUp (state : State) (name : String) : String :=
  match name with
  | "?" => ofNat state.status
  | "$" => ownNumber
  | "#" => "0"
  | "0" => "/bin/sh"
  | name => (state.bindings.lookup name).getD ""

/-- Set a variable. -/
def assign (state : State) (name value : String) : State :=
  { state with bindings := (name, value) :: state.bindings }

/-- Set variables, one after the other. -/
def assignAll (state : State) (settings : List (String × String)) : State :=
  settings.foldl (fun state (name, value) => state.assign name value) state

/-- The state after a part that ran on its own: the variables, the traps and the descriptors are
those from before. -/
def returned (state before : State) (status : Nat) : State :=
  { state with
    status
    bindings := before.bindings
    traps := before.traps
    output := before.output
    complaints := before.complaints }

end State

end VmFleet.Shell
