/-
This file starts a runner that is a shell script. Its log is opened before the
program is looked for, so a log that cannot be opened is reported first and a
program that is not there leaves an empty log behind. All that the runner prints
is added to what the log held.
-/

import VmFleet.Boot.RunDirectory
import VmFleet.Shell.Run

namespace VmFleet.Runner

/-- The name of the program that runs scripts. -/
def scriptProgram : String := "sh"

/-- Why a program cannot be started, if so. A name without slashes is looked for
among the programs of the system. -/
def startRefusal? (tree : Tree) (place : Location) (program : String) : Option Cause :=
  if program.toList.contains (Char.ofNat 0) then some (.other "nul byte found in provided data")
  else if !program.toList.contains '/' then
    if program = scriptProgram then none else some .noEntry
  else
    match tree.status place (Path.ofString program) with
    | .error cause => some cause
    | .ok _ => if Shell.bareName program = scriptProgram then none else some .accessDenied

/-- Start a program with a script, and wait until it is gone. -/
def launch (place : Location) (program script : String) (log : Path)
    (request : Shell.Request) (impatient : Bool) : FileRequest Shell.Report := do
  let location ← TreeRequest.explain (FleetError.io ("opening " ++ log.display))
    (TreeRequest.openToAppend place log)
  match ← TreeRequest.inspect fun tree => .ok (startRefusal? tree place program) with
  | some cause => throw (.io ("spawning " ++ (Path.ofString program).display) cause)
  | none =>
    let report := Shell.run script request impatient
    TreeRequest.explain (FleetError.io ("writing " ++ log.display))
      (TreeRequest.append location report.logged)
    pure report

end VmFleet.Runner
