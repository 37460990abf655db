/-
This file says what a configuration that breaks no rule is like. The rules are taken
one after another, and the whole check passes exactly if every one of them does.
-/

import VmFleet.Config.Load

namespace VmFleet.Config

variable {config : Config}

/-- No rule is broken. -/
structure KeepsRules (config : Config) : Prop where
  endpoint : config.checkEndpoint = .ok ()
  channels : config.checkChannels = .ok ()
  artifacts : config.checkArtifacts = .ok ()
  runner : config.runner ≠ ""
  memory : config.checkMemory = .ok ()
  share : config.checkShare = .ok ()
  times : config.checkTimes = .ok ()

/-- Two checks in a row pass exactly if both do. -/
theorem bind_eq_ok_iff {first : Except FleetError Unit} {next : Unit → Except FleetError Unit} :
    first >>= next = .ok () ↔ first = .ok () ∧ next () = .ok () := by
  cases first with
  | ok done => exact (and_iff_right rfl).symm
  | error error => exact ⟨nofun, nofun⟩

theorem validate_eq_ok_iff : config.validate = .ok () ↔ config.KeepsRules := by
  unfold validate
  simp only [bind_eq_ok_iff]
  constructor
  · rintro ⟨endpoint, channels, artifacts, rest⟩
    by_cases runner : config.runner = ""
    · rw [if_pos runner] at rest
      cases rest
    · rw [if_neg runner] at rest
      simp only [bind_eq_ok_iff] at rest
      obtain ⟨memory, share, times⟩ := rest
      exact ⟨endpoint, channels, artifacts, runner, memory, share, times⟩
  · rintro ⟨endpoint, channels, artifacts, runner, memory, share, times⟩
    refine ⟨endpoint, channels, artifacts, ?_⟩
    rw [if_neg runner]
    simp only [bind_eq_ok_iff]
    exact ⟨memory, share, times⟩

theorem validate_of_checked (read : Config)
    (checked : (read.validate >>= fun _ => pure read) = Except.ok config) :
    config.validate = .ok () := by
  cases validity : read.validate with
  | ok done =>
    rw [validity] at checked
    obtain rfl : read = config := Except.ok.inj checked
    exact validity
  | error error =>
    rw [validity] at checked
    cases checked

/-- A configuration that was loaded breaks no rule. -/
theorem validate_of_load {tree : Tree} {place : Location} {path : Path}
    (loaded : load tree place path = .ok config) : config.validate = .ok () := by
  unfold load at loaded
  simp only at loaded
  split at loaded
  · split at loaded
    · cases loaded
    · split at loaded
      · exact validate_of_checked _ loaded
      · cases loaded
  · exact validate_of_checked standard loaded

/-- The daemon has an endpoint. -/
theorem exists_endpoint_of_validate (valid : config.validate = .ok ()) :
    ∃ socket, config.endpoint = .ok socket := by
  have checked := (validate_eq_ok_iff.mp valid).endpoint
  unfold checkEndpoint at checked
  cases named : config.endpoint with
  | ok socket => exact ⟨socket, rfl⟩
  | error error =>
    rw [named] at checked
    cases checked

/-- There is a range of memory. -/
theorem minMemoryMb_le_of_validate (valid : config.validate = .ok ()) :
    config.minMemoryMb ≤ config.maxMemoryMb := by
  have checked := (validate_eq_ok_iff.mp valid).memory
  unfold checkMemory at checked
  split at checked
  · cases checked
  · rename_i proper
    exact UInt64.not_lt.mp fun below => proper (.inr below)

/-- A client waits longer than a boot may take. -/
theorem bootSeconds_lt_of_validate (valid : config.validate = .ok ()) :
    config.bootSeconds < config.callSeconds := by
  have checked := (validate_eq_ok_iff.mp valid).times
  unfold checkTimes at checked
  split at checked
  · cases checked
  · split at checked
    · cases checked
    · rename_i longer
      exact UInt64.not_le.mp longer

end VmFleet.Config
