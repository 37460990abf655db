/-
This file starts daemons. Before a daemon serves, it must find no other one on
its endpoint and have the privileges it needs; then it lays out its store and
scans it. Its log is attached first and its failure to open changes nothing.
-/

import VmFleet.Config.Validation
import VmFleet.Log.Outlet
import VmFleet.Operation
import VmFleet.Supervision.Daemon

namespace VmFleet.Program

/-- What a daemon finds on its host. -/
structure Host where
  tree : Tree
  place : Location
  environment : Environment
  privileged : Bool
  /-- The octets of memory. -/
  memory : UInt64

/-- The daemon of a configuration, unless its cutoff cannot be told. -/
def Host.daemon? (host : Host) (config : Config) : Option Daemon :=
  (config.store? host.environment).map fun store =>
    Daemon.initial
      { settings := config.settings host.environment host.memory
        store
        runner := Path.ofString config.runner
        macs := MacSource.ofOctets }
      host.tree

/-- Attach the log of the daemon, if that can be done. -/
def Host.openLog (host : Host) (config : Config) : Log.Outlet × Host :=
  let (outcome, tree) :=
    (Log.Outlet.attach host.place (Layout.daemonLog (config.runPath host.environment))).run
      host.tree
  ((outcome.toOption).getD Log.Outlet.unattached, { host with tree })

/-- Lay the store out and scan it, if nothing speaks against serving. The first
argument is what another daemon on the same endpoint answered, if there is one. -/
def preflight (running : Option DaemonInfo) (privileged : Bool) (daemon : Daemon) :
    Daemon × Except FleetError Unit :=
  match running with
  | some info => (daemon, .error (.alreadyRunning info.pid))
  | none =>
    if !privileged then (daemon, .error .insufficientPrivilege)
    else
      let (outcome, tree) := daemon.setup.store.makeLayout.run daemon.tree
      let daemon := { daemon with tree }
      match outcome with
      | .error error => (daemon, .error error)
      | .ok () =>
        match daemon.listImages with
        | (daemon, .ok _) => (daemon, .ok ())
        | (daemon, .error error) => (daemon, .error error)

end VmFleet.Program
