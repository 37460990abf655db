/-
This file holds the commands that a command line can mean, as values with their
defaults filled in, and the draft that a command to boot a machine stands for.
-/

import VmFleet.CommandLine.Reading

namespace VmFleet.CommandLine

open VmFleet.Text

/-- A request to boot a machine. -/
structure RunRequest where
  channel : String
  version : String
  uuid : String
  name : String
  memoryMb : UInt64
  cpus : UInt32
  root : Option String
  volumes : List String
  cdrom : Option String
  kernelArgs : String
  runnerArgs : List String
deriving DecidableEq, Repr

namespace RunRequest

/-- Everything that is attached, the root volume first. -/
def attached (request : RunRequest) : List String :=
  request.root.toList ++ request.volumes

/-- The draft that the request stands for, once the version and the paths are
settled. -/
def draft (request : RunRequest) (version : String) (storage : List String)
    (cdrom : Option String) : Vm :=
  { Vm.draft request.channel version with
    uuid := request.uuid
    name := request.name
    memoryMb := request.memoryMb
    cpus := request.cpus
    storage := storage
    cdrom := cdrom
    kernelArgs := request.kernelArgs
    runnerArgs := request.runnerArgs }

end RunRequest

/-- Which attributes of a machine are asked for; at most one is. -/
structure QueryField where
  ip : Bool
  tty : Bool
  log : Bool
deriving DecidableEq, Repr

/-- What the program is asked to do. -/
inductive Command
  | serverStart
  | serverStop
  | status
  | ps (json all : Bool)
  | query (target : String) (field : QueryField)
  | run (request : RunRequest)
  | kill (targets : List String) (all : Bool)
  | imagesList (channel : String) (all json : Bool)
  | imagesRemove (channel : String) (version : Option String) (old : Bool)
deriving DecidableEq, Repr

/-- A whole command line. -/
structure Invocation where
  config : Option String
  verbose : Bool
  command : Command
deriving DecidableEq, Repr

namespace Given

/-- The value of an option, or its standard value. -/
def valueOr (given : Given) (verb : Verb) (name : String) : String :=
  match (given.values name).head? with
  | some value => value
  | none => ((verb.optionNamed? name).bind (·.standard)).getD ""

/-- The number that an option has. -/
def numberOr (given : Given) (verb : Verb) (name : String) : Nat :=
  (unsignedOfSigned? word64 (given.valueOr verb name).toList).getD 0

/-- The request to boot a machine. -/
def toRunRequest (given : Given) : RunRequest where
  channel := given.valueOr .run "channel"
  version := given.valueOr .run "version"
  uuid := given.valueOr .run "uuid"
  name := given.valueOr .run "name"
  memoryMb := UInt64.ofNat (given.numberOr .run "memory")
  cpus := UInt32.ofNat (given.numberOr .run "cpus")
  root := (given.values "root").head?
  volumes := given.values "volume"
  cdrom := (given.values "cdrom").head?
  kernelArgs := given.valueOr .run "boot"
  runnerArgs := given.values "extra"

/-- The command that a verb with what was given for it means. A verb that needs
another one below it means none. -/
def toCommand? (given : Given) : Verb → Option Command
  | .serverStart => some .serverStart
  | .serverStop => some .serverStop
  | .status => some .status
  | .ps => some (.ps (given.has "json") (given.has "all"))
  | .query =>
    some (.query (given.valueOr .query "target")
      ⟨given.has "ip", given.has "tty", given.has "log"⟩)
  | .run => some (.run given.toRunRequest)
  | .kill => some (.kill (given.values "targets") (given.has "all"))
  | .imagesList =>
    some (.imagesList (given.valueOr .imagesList "channel") (given.has "all") (given.has "json"))
  | .imagesRemove =>
    some (.imagesRemove (given.valueOr .imagesRemove "channel") (given.values "version").head?
      (given.has "old"))
  | _ => none

end Given

/-- The whole command line that was read. -/
def Invocation.ofLine? (line : Line) : Option Invocation := do
  let (_, outer) ← line.head?
  let (verb, given) ← line.getLast?
  let command ← given.toCommand? verb
  some ⟨(outer.values "config").head?, outer.has "verbose", command⟩

/-- The command that words mean. -/
def parse (words : List String) : Except UsageError Invocation := do
  match Invocation.ofLine? (← read words) with
  | some invocation => pure invocation
  | none => throw .verbMissing

end VmFleet.CommandLine
