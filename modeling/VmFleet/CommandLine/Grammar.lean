/-
This file declares what can be written on the command line: the verbs with the
verbs below them, the options and the positional arguments of each verb, what
excludes what and what has to be there. Reading, the help texts and the typed
commands all follow from these declarations.
-/

import VmFleet.Images.Store
import VmFleet.Operation
import VmFleet.Vm.Record

namespace VmFleet.CommandLine

/-- The verbs of the command line; the outermost one is the program itself. -/
inductive Verb
  | program
  | server
  | serverStart
  | serverStop
  | status
  | ps
  | query
  | run
  | kill
  | images
  | imagesList
  | imagesRemove
deriving DecidableEq, Repr

/-- What an option takes. -/
inductive Form
  /-- Nothing: the option is there or not. -/
  | flag
  /-- Nothing: the option asks for help. -/
  | help
  | text
  /-- A path, which is never empty. -/
  | path
  | word64
  | word32
deriving DecidableEq, Repr

/-- An option. It is known by its long name. -/
structure OptionRule where
  name : String
  short : Option Char
  form : Form
  /-- How help texts call the value. -/
  label : String
  about : String
  /-- The value when the option is left out, as it is written. -/
  standard : Option String
  /-- The option may be given more than once. -/
  repeats : Bool
  /-- The value may look like an option. -/
  literal : Bool
deriving DecidableEq, Repr

/-- A positional argument. -/
structure ArgumentRule where
  name : String
  label : String
  about : String
  /-- Any number of values is taken instead of one. -/
  many : Bool
deriving DecidableEq, Repr

/-- Whether an option takes a value. -/
def OptionRule.takesValue (rule : OptionRule) : Bool :=
  match rule.form with
  | .flag => false
  | .help => false
  | _ => true

/-- An option without a value. -/
def switch (name : String) (short : Option Char) (about : String) : OptionRule :=
  ⟨name, short, .flag, "", about, none, false, false⟩

/-- An option with one value. -/
def setting (name : String) (short : Option Char) (form : Form) (label about : String)
    (standard : Option String) : OptionRule :=
  ⟨name, short, form, label, about, standard, false, false⟩

/-- The option that asks for help, which every verb has. -/
def helpOption : OptionRule :=
  ⟨"help", some 'h', .help, "", "Print help", none, false, false⟩

/-- The version that stands for the newest one. -/
def latest : String := "latest"

/-- The channel that is meant when none is named. -/
def standardChannel : String := "alpha"

/-- The option that names a channel. -/
def channelOption (about : String) : OptionRule :=
  setting "channel" (some 'C') .text "CHANNEL" about (some standardChannel)

namespace Verb

/-- The word that is written for a verb. -/
def word : Verb → String
  | program => DaemonInfo.programName
  | server => "server"
  | serverStart => "start"
  | serverStop => "stop"
  | status => "status"
  | ps => "ps"
  | query => "query"
  | run => "run"
  | kill => "kill"
  | images => "images"
  | imagesList => "ls"
  | imagesRemove => "rm"

/-- What a verb does. -/
def about : Verb → String
  | program => "Local fleet manager for lightweight VMs"
  | server => "Control the background daemon"
  | serverStart => "Run the daemon in the foreground (requires root)"
  | serverStop => "Ask a running daemon to exit"
  | status => "Show whether the daemon is up"
  | ps => "List VMs"
  | query => "Print one attribute of a VM"
  | run => "Boot a new VM"
  | kill => "Halt VMs by UUID or name"
  | images => "Manage locally stored images"
  | imagesList => "List local images"
  | imagesRemove => "Delete local images"

/-- The verbs below a verb. One of them has to follow. -/
def below : Verb → List Verb
  | program => [server, status, ps, query, run, kill, images]
  | server => [serverStart, serverStop]
  | images => [imagesList, imagesRemove]
  | _ => []

/-- The options of the verb that boots a machine. -/
def runOptions : List OptionRule :=
  [setting "channel" (some 'C') .text "CHANNEL" "Image channel" (some standardChannel),
    setting "version" (some 'V') .text "VERSION" "Image version, or `latest`" (some latest),
    setting "uuid" none .text "UUID" "Requested UUID; `random` picks a fresh one"
      (some Vm.randomUuid),
    setting "name" (some 'n') .text "NAME" "Friendly name (defaults to the UUID)" (some ""),
    setting "memory" (some 'm') .word64 "MEMORY" "Memory in MB" (some "1024"),
    setting "cpus" (some 'c') .word32 "CPUS" "Virtual CPUs" (some "1"),
    setting "root" (some 'r') .path "ROOT" "Root volume" none,
    { setting "volume" none .path "VOLUMES" "Additional volumes, attached in order" none with
      repeats := true },
    setting "cdrom" none .path "CDROM" "ISO image to attach as cdrom" none,
    setting "boot" (some 'b') .text "BOOT" "Extra kernel command line" (some ""),
    { setting "extra" none .text "EXTRA" "Extra arguments passed to the runner" none with
      repeats := true, literal := true }]

/-- The options of a verb, without the one for help. -/
def ownOptions : Verb → List OptionRule
  | program =>
    [setting "config" (some 'c') .path "CONFIG" "Path to the daemon config file" none,
      switch "verbose" (some 'v') "Enable verbose output"]
  | ps =>
    [switch "json" none "Print JSON instead of a table",
      switch "all" (some 'a') "Include VMs that are still booting or halting"]
  | query =>
    [switch "ip" none "Public IP address", switch "tty" none "Console tty path",
      switch "log" none "Runner log path"]
  | run => runOptions
  | kill => [switch "all" (some 'a') "Halt every VM"]
  | imagesList =>
    [channelOption "Channel to list", switch "all" (some 'a') "Browse every channel",
      switch "json" none "Print JSON"]
  | imagesRemove =>
    [channelOption "",
      setting "version" (some 'V') .text "VERSION" "Version to delete, or `latest`" none,
      switch "old" none "Delete every version but the newest"]
  | _ => []

/-- The options of a verb. -/
def options (verb : Verb) : List OptionRule :=
  verb.ownOptions ++ [helpOption]

/-- The positional argument of a verb. -/
def argument? : Verb → Option ArgumentRule
  | query => some ⟨"target", "TARGET", "UUID or name", false⟩
  | kill => some ⟨"targets", "TARGETS", "", true⟩
  | _ => none

/-- The names that exclude each other. -/
def exclusions : Verb → List (String × String)
  | query => [("ip", "tty"), ("ip", "log"), ("tty", "log")]
  | kill => [("all", "targets")]
  | imagesList => [("all", "channel")]
  | imagesRemove => [("old", "version")]
  | _ => []

/-- The names of which one has to be there. -/
def demands : Verb → List (List String)
  | query => [["target"]]
  | imagesRemove => [["version", "old"]]
  | _ => []

/-- The option with a long name. -/
def optionNamed? (verb : Verb) (name : String) : Option OptionRule :=
  verb.options.find? (·.name == name)

/-- The option with a short name. -/
def optionWithShort? (verb : Verb) (short : Char) : Option OptionRule :=
  verb.options.find? (·.short == some short)

/-- The verb below a verb that a word stands for. -/
def belowNamed? (verb : Verb) (word : String) : Option Verb :=
  verb.below.find? (·.word == word)

end Verb

end VmFleet.CommandLine
