/-
This file loads the configuration from a file. A file that is not there means the
defaults; one that cannot be read, that is no text, that is not well formed or
that breaks a rule is an error that names it.
-/

import VmFleet.Config.Reading
import VmFleet.Config.Validation
import VmFleet.Toml.Document

namespace VmFleet.Config

/-- The configuration that a text describes. -/
def parse? (source : String) : Option Config :=
  (Toml.parse? source).bind ofStatements?

/-- The text of the file at a path. -/
def readText (tree : Tree) (place : Location) (path : Path) : Except Cause String := do
  match Text.decode? (← tree.content place path) with
  | some text => pure text
  | none => throw .notText

/-- The configuration at a path, with every rule checked. -/
def load (tree : Tree) (place : Location) (path : Path) : Except FleetError Config := do
  let config ←
    if tree.pathExists place path then
      match readText tree place path with
      | .error cause => throw (.configLoad path.display cause)
      | .ok source =>
        match parse? source with
        | some config => pure config
        | none => throw (.configParse path.display "not a configuration")
    else pure standard
  config.validate
  pure config

end VmFleet.Config
