/-
This file runs the whole program from its words to its exit code. Words that make
no command end it with code two, except that help is printed and counts as
success. Any other failure ends it with code one and nothing more on its output
than was printed before.
-/

import VmFleet.Config.Load
import VmFleet.Program.Conversation
import VmFleet.Program.Start

namespace VmFleet.Program

open VmFleet.Client VmFleet.CommandLine

/-- How the program ended. -/
structure Ending where
  output : String
  complaint : Option String
  code : Nat
  /-- The daemon that goes on serving, if one was started. -/
  serving : Option Daemon

namespace Ending

/-- The end of a program that did what it was asked. -/
def done (output : String) : Ending :=
  ⟨output, none, 0, none⟩

/-- The end of a program that met an error. -/
def failed (output : String) (error : FleetError) : Ending :=
  ⟨output, some error.flatten, 1, none⟩

end Ending

/-- The words that stand on the error output for a command line that is refused. -/
def usageComplaint : String := "the command line was not understood; see --help"

/-- The end of a program whose words make no command. -/
def refuse (error : UsageError) : Ending :=
  match error with
  | .help text => .done text
  | error => ⟨"", some usageComplaint, error.exitCode, none⟩

/-- Start a daemon on its endpoint, if there is one to start. -/
def startDaemon {m : Type → Type} [Monad m] (link : Link m) (host : Host) (config : Config) :
    Except FleetError Socket → Option Daemon → m (Ending × Host)
  | .error error, _ => pure (.failed "" error, host)
  | .ok _, none => pure (⟨"", some "the image cutoff is beyond all times", 101, none⟩, host)
  | .ok endpoint, some daemon => do
    let running := (probe endpoint.render config.probeMilliseconds.toNat
      (← link.ask .echo)).toOption
    match preflight running host.privileged daemon with
    | (daemon, .ok ()) => pure (⟨"", none, 0, some daemon⟩, { host with tree := daemon.tree })
    | (daemon, .error error) => pure (.failed "" error, { host with tree := daemon.tree })

/-- Start the daemon. Gives what is left of the host too. -/
def serve {m : Type → Type} [Monad m] (link : Link m) (host : Host) (config : Config) :
    m (Ending × Host) :=
  let host := (host.openLog config).2
  startDaemon link host config config.endpoint (host.daemon? config)

/-- Run the program with its words; the configuration is looked for at the given
path unless the words name another one. -/
def run {m : Type → Type} [Monad m] (link : Link m) (host : Host) (standardPath : Path)
    (words : List String) : m (Ending × Host) := do
  match CommandLine.parse words with
  | .error error => pure (refuse error, host)
  | .ok invocation =>
    match Config.load host.tree host.place
        ((invocation.config.map Path.ofString).getD standardPath) with
    | .error error => pure (.failed "" error, host)
    | .ok config =>
      if invocation.command = .serverStart then serve link host config
      else
        let standpoint : Standpoint := ⟨host.tree, host.place, host.environment⟩
        let (outcome, output) ← (converse link standpoint config invocation.command).run ""
        match outcome with
        | .ok () => pure (.done output, host)
        | .error error => pure (.failed output error, host)

end VmFleet.Program
