/-
This file reads a configuration out of the statements of a file. Statements are
taken one after the other, so a later one wins over an earlier one. Keys and
tables that mean nothing here are passed over. A value of another kind than is
asked for is taken where its text gives the value, and refused otherwise.
-/

import VmFleet.Config.Basic
import VmFleet.Toml.Value

namespace VmFleet

open VmFleet.Text VmFleet.Toml

/-! ### Values -/

namespace Toml.Value

/-- A value as text: quoted text as it is, a number as its shortest text, a date
or a time as it was written. -/
def asText? : Value → Option String
  | text content => some content
  | integer number => some (toString number)
  | float number => some number.text
  | moment source => some source
  | boolean _ => none
  | array _ => none
  | table _ => none

/-- A value as a word of 64 bits. A negative number counts down from the top, and
the text of a number counts as that number. -/
def asWord? : Value → Option UInt64
  | integer number => some (UInt64.ofNat (number % Int.ofNat word64).toNat)
  | text content => (unsigned? word64 content.toList).map UInt64.ofNat
  | float number => (unsigned? word64 number.text.toList).map UInt64.ofNat
  | moment _ => none
  | boolean _ => none
  | array _ => none
  | table _ => none

/-- A value as a list of texts. -/
def asTexts? : Value → Option (List String)
  | array items => items.mapM asText?
  | _ => none

end Toml.Value

namespace Config

/-! ### Keys -/

/-- The tables of a configuration. -/
inductive Section
  | images
  | timeouts
  | resources
deriving DecidableEq, Repr

/-- How a value becomes part of a configuration. -/
abbrev Setter := Config → Value → Option Config

/-- What a key means. -/
inductive Meaning
  /-- The whole configuration. -/
  | whole
  /-- A table of the configuration. -/
  | part (name : Section)
  /-- A value of the configuration. -/
  | value (set : Setter)
  /-- Something below a value, where nothing can be. -/
  | below
  /-- Nothing here. -/
  | foreign

/-- Take a value as a text. -/
def takeText (store : Config → String → Config) : Setter := fun config value =>
  value.asText?.map (store config)

/-- Take a value as a word. -/
def takeWord (store : Config → UInt64 → Config) : Setter := fun config value =>
  value.asWord?.map (store config)

/-- Take a value as a list of texts. -/
def takeTexts (store : Config → List String → Config) : Setter := fun config value =>
  value.asTexts?.map (store config)

/-- The table with a name. -/
def Section.ofName? : String → Option Section
  | "images" => some .images
  | "timeouts" => some .timeouts
  | "resources" => some .resources
  | _ => none

/-- The values outside of any table. -/
def topSetter? : String → Option Setter
  | "listen" => some (takeText fun config listen => { config with listen })
  | "store_root" => some (takeText fun config root => { config with storeRoot := some root })
  | "run_root" => some (takeText fun config root => { config with runRoot := some root })
  | "runner" => some (takeText fun config runner => { config with runner })
  | "channels" => some (takeTexts fun config names => { config with channels := some names })
  | _ => none

/-- The values in a table. -/
def Section.setter? : Section → String → Option Setter
  | .images, "artifacts" =>
    some (takeTexts fun config names => { config with artifacts := some names })
  | .images, "stale_before_unix" =>
    some (takeWord fun config staleBefore => { config with staleBefore })
  | .timeouts, "boot_s" => some (takeWord fun config bootSeconds => { config with bootSeconds })
  | .timeouts, "probe_ms" =>
    some (takeWord fun config probeMilliseconds => { config with probeMilliseconds })
  | .timeouts, "call_s" => some (takeWord fun config callSeconds => { config with callSeconds })
  | .timeouts, "reap_grace_s" =>
    some (takeWord fun config reapGraceSeconds => { config with reapGraceSeconds })
  | .resources, "min_memory_mb" =>
    some (takeWord fun config minMemoryMb => { config with minMemoryMb })
  | .resources, "max_memory_mb" =>
    some (takeWord fun config maxMemoryMb => { config with maxMemoryMb })
  | .resources, "host_memory_share_pct" =>
    some (takeWord fun config hostSharePercent => { config with hostSharePercent })
  | .resources, "max_total_memory_mb" =>
    some (takeWord fun config total => { config with maxTotalMb := some total })
  | _, _ => none

/-- What a value with the given rest of a key means. -/
def Meaning.ofSetter (setter : Option Setter) (rest : Key) : Meaning :=
  match setter, rest with
  | some set, [] => .value set
  | some _, _ :: _ => .below
  | none, _ => .foreign

/-- What a key means. -/
def Meaning.ofKey : Key → Meaning
  | [] => .whole
  | name :: rest =>
    match Section.ofName? name, rest with
    | some table, [] => .part table
    | some table, field :: rest => .ofSetter (table.setter? field) rest
    | none, rest => .ofSetter (topSetter? name) rest

/-! ### Statements -/

mutual

/-- Assign a value to a key. A table is assigned by assigning what is in it. -/
def assign (config : Config) (key : Key) : Value → Option Config
  | .table assignments =>
    match Meaning.ofKey key with
    | .whole => assignAll config key assignments
    | .part _ => assignAll config key assignments
    | .value _ => none
    | .below => none
    | .foreign => some config
  | value =>
    match Meaning.ofKey key with
    | .whole => none
    | .part _ => none
    | .value set => set config value
    | .below => none
    | .foreign => some config

/-- Make assignments below a key, one after the other. -/
def assignAll (config : Config) (outer : Key) : List (Key × Value) → Option Config
  | [] => some config
  | (key, value) :: assignments => do
    let config ← assign config (outer ++ key) value
    assignAll config outer assignments

end

/-- What has been read so far: the configuration and the table that is open. -/
structure Progress where
  config : Config
  opened : Key

/-- Take one more statement. Only what is foreign can be an array of tables. -/
def Progress.take (progress : Progress) : Statement → Option Progress
  | .assign key value => do
    let config ← assign progress.config (progress.opened ++ key) value
    some { progress with config }
  | .openTable key =>
    match Meaning.ofKey key with
    | .value _ => none
    | .below => none
    | _ => some { progress with opened := key }
  | .openItem key =>
    match Meaning.ofKey key with
    | .foreign => some { progress with opened := key }
    | _ => none

/-- The configuration that statements describe. -/
def ofStatements? (statements : List Statement) : Option Config :=
  (statements.foldlM Progress.take ⟨standard, []⟩).map (·.config)

end Config

end VmFleet
