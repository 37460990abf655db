/-
This file compares the sums that a daemon takes with the true ones. A daemon adds in words of
64 bits, and an addition that leaves them ends the request in the middle; no rule for
configurations says how large the ceiling and the memory of one machine may be. Where both fit
a word together, no addition does that: what is claimed stays within the ceiling, so the sum
with one machine more fits a word, so the admission looks at the true sum and what is claimed
stays within the ceiling. But a file may let one machine have all the memory that a word can
name. Then a request for such a machine breaks off, and nobody is ever told.
-/

import VmFleet.Config.Load
import VmFleet.Proofs.Supervision.BrokenOff
import VmFleet.Proofs.Supervision.Ceiling

namespace VmFleet

open Text (word64)

/-! ### Sums in words -/

/-- A sum of two words, if it is one. -/
def checkedAdd (left right : UInt64) : Option UInt64 :=
  if left.toNat + right.toNat < word64 then some (left + right) else none

/-- A sum of words as it is taken, one word after the other. -/
def checkedSum (start : UInt64) (words : List UInt64) : Option UInt64 :=
  words.foldlM checkedAdd start

theorem toNat_checkedAdd (left right : UInt64) :
    (checkedAdd left right).map (·.toNat) =
      if left.toNat + right.toNat < word64 then some (left.toNat + right.toNat) else none := by
  unfold checkedAdd
  split
  · rename_i small
    rw [Option.map_some, UInt64.toNat_add]
    exact congrArg some (Nat.mod_eq_of_lt small)
  · rfl

/-- A sum is told exactly if the whole of it fits a word, and then it is the true one. -/
theorem toNat_checkedSum (start : UInt64) (words : List UInt64) :
    (checkedSum start words).map (·.toNat) =
      if start.toNat + total (words.map (·.toNat)) < word64 then
        some (start.toNat + total (words.map (·.toNat)))
      else none := by
  induction words generalizing start with
  | nil => exact (if_pos start.toNat_lt).symm
  | cons word words inductionHypothesis =>
    have first := toNat_checkedAdd start word
    unfold checkedSum at inductionHypothesis ⊢
    rw [List.foldlM_cons, List.map_cons, total_cons, ← Nat.add_assoc]
    cases told : checkedAdd start word with
    | none =>
      rw [told] at first
      have large : ¬ start.toNat + word.toNat < word64 := by
        intro small
        rw [if_pos small] at first
        cases first
      exact (if_neg fun small => large (Nat.lt_of_le_of_lt (Nat.le_add_right _ _) small)).symm
    | some sum =>
      rw [told] at first
      have same : sum.toNat = start.toNat + word.toNat := by
        split at first
        · exact Option.some.inj first
        · cases first
      rw [← same]
      exact inductionHypothesis sum

/-- What a sum has come to on its way is no more than the whole sum, in whatever order it is
taken. -/
theorem total_le_of_perm_append {before after numbers : List Nat}
    (perm : (before ++ after).Perm numbers) : total before ≤ total numbers := by
  rw [total_eq_sum, total_eq_sum, ← perm.sum_eq, List.sum_append]
  exact Nat.le_add_right _ _

/-- The memory of all machines is what there is, in whatever order a daemon goes through them. -/
theorem Registry.total_eq_committedMb {registry : Registry} {words : List UInt64}
    (perm : words.Perm (registry.active.values.map (·.vm.memoryMb))) :
    total (words.map (·.toNat)) = registry.committedMb := by
  rw [committedMb, total_eq_sum, total_eq_sum, (perm.map (·.toNat)).sum_eq, List.map_map]
  rfl

/-- In whatever order a daemon goes through its machines, the sum that its admission looks at is
the one it comes to by adding a new machine to them, if every addition stays in the words. -/
theorem Shared.claimedWith?_eq_checkedSum {shared : Shared} {words : List UInt64}
    (perm : words.Perm (shared.registry.active.values.map (·.vm.memoryMb))) (vm : Vm) :
    shared.claimedWith? vm = (checkedSum 0 (words ++ [vm.memoryMb])).map (·.toNat) := by
  have whole : total ((words ++ [vm.memoryMb]).map (·.toNat)) =
      shared.registry.committedMb + vm.memoryMb.toNat := by
    rw [← Registry.total_eq_committedMb perm, total_eq_sum, total_eq_sum, List.map_append,
      List.sum_append]
    rfl
  rw [toNat_checkedSum, UInt64.toNat_zero, Nat.zero_add, whole]
  rfl

/-! ### Room for one machine more -/

namespace Daemon

variable {daemon : Daemon}

/-- Every sum that a daemon takes fits a word: what it has come to on its way through the
machines, in whatever order it takes them, and the sum of all of them with what a draft is
moved to. -/
structure SumsFit (daemon : Daemon) : Prop where
  parts : ∀ before after : List RegistryEntry,
    (before ++ after).Perm daemon.shared.registry.active.values →
      total (before.map (·.vm.memoryMb.toNat)) < word64
  drafts : ∀ draft : Vm,
    daemon.shared.registry.committedMb +
      (daemon.setup.settings.fit draft).memoryMb.toNat < word64

theorem Bounded.sumsFit (bounded : daemon.Bounded)
    (ordered : daemon.setup.settings.minMemoryMb ≤ daemon.setup.settings.maxMemoryMb)
    (room : daemon.setup.settings.ceilingMb.toNat +
      daemon.setup.settings.maxMemoryMb.toNat < word64) : daemon.SumsFit := by
  have together := bounded.together
  rw [deeds, Registry.claimedMb_deeds] at together
  refine ⟨fun before after perm => ?_, fun draft => ?_⟩
  · have less : total (before.map (·.vm.memoryMb.toNat)) ≤
        daemon.shared.registry.committedMb :=
      total_le_of_perm_append (by rw [← List.map_append]; exact perm.map _)
    omega
  · have largest := UInt64.le_iff_toNat_le.mp (Settings.allows_fit ordered draft).highest
    omega

/-- A request whose sum leaves the words breaks off. The lock guards what it guarded before, and
nothing ever happens to that request again. -/
theorem brokeOff_of_untold {serial : Nat} {boot : Boot} (owned : daemon.Owned)
    (found : daemon.boots[serial]? = some boot) (arrived : boot.request = .arrived)
    (opened : daemon.shared.closing = false)
    (large : word64 ≤ daemon.shared.registry.committedMb +
      (daemon.setup.settings.fit boot.draft).memoryMb.toNat) (draws : Nat → Uuid)
    (time : UInt64) :
    ∃ next, daemon.step? (.reserve serial draws time) = some next ∧
      next.shared = daemon.shared ∧
      ∀ events later, next.run? events = some later →
        later.BrokeOff serial { boot with request := .unjudged } := by
  have broken : (daemon.admission serial boot draws time).outcome = .broken :=
    (Shared.accept_eq_broken_iff _ _ _ _ _ _ opened).mpr large
  have there : (daemon.reserve serial boot draws time).boots[serial]? =
      some { boot with request := .unjudged } := by
    simp only [reserve, broken]
    exact List.getElem?_set_self (List.getElem?_eq_some_iff.mp found).1
  obtain ⟨race, reaper⟩ := owned.phased serial boot found (by rw [arrived]; rfl)
  refine ⟨_, step?_of_rule (.reserve draws time found arrived),
    shared_reserve draws time fun vm admitted => ?_, fun events later ran => ?_⟩
  · rw [broken] at admitted
    cases admitted
  · exact BrokeOff.run ⟨there, rfl, race, reaper⟩ ran

/-! ### The result -/

/-- Where the ceiling and the memory of the largest machine fit a word together, no addition of
an admission leaves the words. In every state that the daemon can come to, the sum over its
machines fits a word all the way, in whatever order they are added, so it is told and is the true
one, within the ceiling; and the sum with what a draft is moved to is told and true as well. So
no admission breaks off, and what is admitted fits under the ceiling. -/
theorem admission_sums_fit {files : Tree} {place : Location} {path : Path} {config : Config}
    {environment : Environment} {hostOctets : UInt64} {setup : Setup} {tree : Tree}
    {daemon : Daemon} (loaded : Config.load files place path = .ok config)
    (limits : setup.settings = config.settings environment hostOctets)
    (room : (config.ceilingMb hostOctets).toNat + config.maxMemoryMb.toNat < word64)
    (reached : Reachable (initial setup tree) daemon) :
    daemon.SumsFit ∧
    (∀ words : List UInt64, words.Perm (daemon.shared.registry.active.values.map (·.vm.memoryMb)) →
      (checkedSum 0 words).map (·.toNat) = some daemon.shared.registry.committedMb) ∧
    daemon.shared.registry.committedMb ≤ (config.ceilingMb hostOctets).toNat ∧
    ∀ serial boot draws time,
      (∀ words : List UInt64,
        words.Perm (daemon.shared.registry.active.values.map (·.vm.memoryMb)) →
          (checkedSum 0
            (words ++ [(daemon.setup.settings.fit boot.draft).memoryMb])).map (·.toNat) =
              some (daemon.shared.registry.committedMb +
                (daemon.setup.settings.fit boot.draft).memoryMb.toNat)) ∧
      (daemon.admission serial boot draws time).outcome ≠ .broken ∧
      ∀ vm, (daemon.admission serial boot draws time).outcome = .admitted vm →
        daemon.shared.registry.committedMb + vm.memoryMb.toNat ≤
          (config.ceilingMb hostOctets).toNat := by
  have same : daemon.setup.settings = config.settings environment hostOctets := by
    rw [setup_of_reachable reached]
    exact limits
  have ordered : daemon.setup.settings.minMemoryMb ≤ daemon.setup.settings.maxMemoryMb := by
    rw [same]
    exact Config.minMemoryMb_le_of_validate (Config.validate_of_load loaded)
  have bounded : daemon.Bounded := by
    rw [setup_of_reachable reached] at ordered
    exact bounded_of_reachable ordered reached
  have fit := bounded.sumsFit ordered (by rw [same]; exact room)
  have together := bounded.together
  rw [deeds, Registry.claimedMb_deeds, same] at together
  refine ⟨fit, fun words perm => ?_, together, fun serial boot draws time =>
    ⟨fun words perm => ?_, admission_ne_broken draws time (fit.drafts boot.draft),
      fun vm admitted => ?_⟩⟩
  · have small : daemon.shared.registry.committedMb < word64 :=
      fit.parts daemon.shared.registry.active.values [] (by rw [List.append_nil])
    rw [toNat_checkedSum, UInt64.toNat_zero, Nat.zero_add, Registry.total_eq_committedMb perm]
    exact if_pos small
  · rw [← Shared.claimedWith?_eq_checkedSum perm]
    exact Shared.claimedWith?_eq_some_iff.mpr ⟨fit.drafts boot.draft, rfl⟩
  · have fits := (fits_of_admission ordered admitted).2
    rw [deeds, Registry.claimedMb_deeds, same, Nat.add_comm] at fits
    exact fits

/-- A tree that holds a configuration and nothing else. -/
def settled (text : String) : Tree :=
  ⟨[([Text.octetsOf "fleet.toml"], .file (Text.octetsOf text))], default, []⟩

/-- A daemon without images, with the limits of a configuration. -/
def limited (config : Config) : Daemon :=
  initial
    { imageless.setup with settings := config.settings ⟨none, none, none, none⟩ 0 }
    imageless.tree

/-- The usual limits on one machine, and a ceiling. -/
def usual : Config :=
  { Config.standard with maxTotalMb := some 8192 }

theorem load_usual :
    Config.load (settled "[resources]\nmax_total_memory_mb = 8192") []
      (Path.ofString "/fleet.toml") = .ok usual := by
  decide +kernel

theorem committedMb_oneOfTwoAdmitted :
    ((limited usual).run? oneOfTwoAdmitted).any
      (fun daemon => daemon.shared.registry.committedMb == 6000) = true := by
  decide +kernel

theorem admission_sums_fit_of_usual :
    ∃ daemon, Reachable (limited usual) daemon ∧ daemon.shared.registry.committedMb = 6000 ∧
      daemon.SumsFit ∧
      ∀ boot, (daemon.admission 1 boot (drawing 2) 8).outcome ≠ .broken ∧
        ∀ vm, (daemon.admission 1 boot (drawing 2) 8).outcome = .admitted vm →
          6000 + vm.memoryMb.toNat ≤ 8192 := by
  obtain ⟨daemon, ran, claimed⟩ := (Option.any_eq_true _ _).mp committedMb_oneOfTwoAdmitted
  have reached : Reachable (limited usual) daemon := reachable_iff.mpr ⟨_, ran⟩
  obtain ⟨fit, -, -, admissions⟩ :=
    @admission_sums_fit _ _ _ _ ⟨none, none, none, none⟩ 0 _ _ _ load_usual rfl
      (by decide +kernel) reached
  have claimed := eq_of_beq claimed
  refine ⟨daemon, reached, claimed, fit, fun boot => ?_⟩
  obtain ⟨-, judged, fits⟩ := admissions 1 boot (drawing 2) 8
  exact ⟨judged, claimed ▸ fits⟩

/-- The same ceiling, and one machine may have all the memory that a word can name. -/
def unlimited : Config :=
  { usual with maxMemoryMb := UInt64.ofNat (word64 - 1) }

/-- Two requests, of which the second one asks for all that memory. -/
def allMemoryAsked : List Event :=
  let all : Vm := { Vm.draft "alpha" "1.2.3" with memoryMb := UInt64.ofNat (word64 - 1) }
  [.submit (Vm.draft "alpha" "1.2.3"), .submit all, .reserve 0 (drawing 1) 7]

theorem untold_allMemoryAsked :
    ((limited unlimited).run? allMemoryAsked).any (fun daemon =>
      daemon.boots[1]?.any fun boot =>
        boot.request matches .arrived && !daemon.shared.closing &&
          decide (word64 ≤ daemon.shared.registry.committedMb +
            (daemon.setup.settings.fit boot.draft).memoryMb.toNat)) = true := by
  decide +kernel

/-- The memory of a machine that is registered and that of the second one are more than a word
can tell, under a configuration that was accepted. The second request breaks off and is never
answered. -/
theorem untold_sum_breaks_admission :
    Config.load (settled "[resources]\nmax_total_memory_mb = 8192\nmax_memory_mb = -1") []
        (Path.ofString "/fleet.toml") = .ok unlimited ∧
      ∃ daemon boot next, Reachable (limited unlimited) daemon ∧
        daemon.boots[1]? = some boot ∧
        word64 ≤ daemon.shared.registry.committedMb +
          (daemon.setup.settings.fit boot.draft).memoryMb.toNat ∧
        daemon.step? (.reserve 1 (drawing 2) 8) = some next ∧
        next.shared = daemon.shared ∧
        ∀ events later, next.run? events = some later →
          later.BrokeOff 1 { boot with request := .unjudged } := by
  refine ⟨by decide +kernel, ?_⟩
  obtain ⟨daemon, ran, judged⟩ := (Option.any_eq_true _ _).mp untold_allMemoryAsked
  obtain ⟨boot, found, all⟩ := (Option.any_eq_true _ _).mp judged
  simp only [Bool.and_eq_true, Bool.not_eq_true', decide_eq_true_eq] at all
  obtain ⟨⟨phase, opened⟩, large⟩ := all
  have arrived : boot.request = .arrived := by
    split at phase
    · assumption
    · cases phase
  have reached : Reachable (limited unlimited) daemon := reachable_iff.mpr ⟨_, ran⟩
  obtain ⟨next, stepped, same, stays⟩ :=
    brokeOff_of_untold (owned_of_reachable reached) found arrived opened large (drawing 2) 8
  exact ⟨daemon, boot, next, reached, found, large, stepped, same, stays⟩

end Daemon

end VmFleet
