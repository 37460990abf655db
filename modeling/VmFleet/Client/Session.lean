/-
This file holds sessions. A session starts with a probe of the daemon that the
configuration names; after that every question is asked with the patience that
the configuration grants. What a command prints is kept even when a later
question goes wrong.
-/

import VmFleet.Client.Call
import VmFleet.Config.Validation

namespace VmFleet.Client

/-- A conversation: it prints, and it may end with an error. -/
abbrev Talk (m : Type → Type) := ExceptT FleetError (StateT String m)

/-- Print a text. -/
def print {m : Type → Type} [Monad m] (text : String) : Talk m Unit :=
  modify (· ++ text)

/-- Print a line. -/
def printLine {m : Type → Type} [Monad m] (line : String) : Talk m Unit :=
  print (line ++ "\n")

/-- Go on with a value, or end with an error. -/
def settle {m : Type → Type} [Monad m] {α : Type} (outcome : Except FleetError α) : Talk m α :=
  match outcome with
  | .ok value => pure value
  | .error error => throw error

/-- Put a question on a link. -/
def pose {m : Type → Type} [Monad m] {α : Type} (link : Link m) (question : Question α) :
    Talk m (Option (Reply α)) :=
  ExceptT.lift (StateT.lift (link.ask question))

/-- A session with a daemon that answered the probe. -/
structure Session where
  address : String
  /-- How many milliseconds an answer may take. -/
  patience : Nat
  info : DaemonInfo
deriving DecidableEq, Repr

namespace Session

/-- Start a session with the daemon that a configuration names. -/
def start {m : Type → Type} [Monad m] (link : Link m) (config : Config) : Talk m Session := do
  let endpoint ← settle config.endpoint
  let info ← settle (probe endpoint.render config.probeMilliseconds.toNat (← pose link .echo))
  pure ⟨endpoint.render, 1000 * config.callSeconds.toNat, info⟩

/-- Ask a question. -/
def ask {m : Type → Type} [Monad m] {α : Type} (link : Link m) (session : Session)
    (question : Question α) : Talk m α := do
  settle (call session.address question.operation session.patience (← pose link question)).1

end Session

end VmFleet.Client
