/-
This file proves that the memory of all machines together stays within the
ceiling. The sum is a sum over deeds, so only an admission makes it larger, and an
admission looks at the sum with the new machine under the same lock; a machine that
failed or is asked to end has its deed until it is taken out, so it counts until
then. What is admitted was moved into the allowed range before, and no later step
touches that. The refusals are exact as well: a request is refused for memory at
its admission exactly if the sum is too much, and never for memory after that.
-/

import Mathlib.Algebra.BigOperators.Group.List.Basic
import Mathlib.Algebra.GroupWithZero.Nat
import VmFleet.Proofs.Config.Validation
import VmFleet.Proofs.Supervision.Admission
import VmFleet.Proofs.Supervision.Advance
import VmFleet.Proofs.Supervision.Identity

namespace VmFleet

/-! ### The limits on one machine -/

theorem clampMemory_bounds {lowest highest : UInt64} (ordered : lowest ≤ highest)
    (requested : UInt64) :
    lowest ≤ clampMemory requested lowest highest ∧
      clampMemory requested lowest highest ≤ highest := by
  unfold clampMemory
  split
  · exact ⟨UInt64.le_refl lowest, ordered⟩
  · rename_i above
    split
    · exact ⟨ordered, UInt64.le_refl highest⟩
    · rename_i below
      exact ⟨UInt64.not_lt.mp above, UInt64.not_lt.mp below⟩

/-- The record keeps to the limits on memory and has a processor. -/
structure Settings.Allows (settings : Settings) (vm : Vm) : Prop where
  lowest : settings.minMemoryMb ≤ vm.memoryMb
  highest : vm.memoryMb ≤ settings.maxMemoryMb
  cpus : 1 ≤ vm.cpus

/-- Whatever a draft asks for, there is a processor. -/
theorem Settings.one_le_cpus_fit (settings : Settings) (draft : Vm) :
    1 ≤ (settings.fit draft).cpus := by
  show 1 ≤ if draft.cpus = 0 then 1 else draft.cpus
  split
  · exact UInt32.le_refl 1
  · rename_i some
    rw [UInt32.le_iff_toNat_le]
    exact Nat.pos_of_ne_zero fun none => some (UInt32.toNat_inj.mp none)

/-- Whatever a draft asks for, it is moved to where it is allowed. -/
theorem Settings.allows_fit {settings : Settings}
    (ordered : settings.minMemoryMb ≤ settings.maxMemoryMb) (draft : Vm) :
    settings.Allows (settings.fit draft) where
  lowest := (clampMemory_bounds ordered draft.memoryMb).1
  highest := (clampMemory_bounds ordered draft.memoryMb).2
  cpus := settings.one_le_cpus_fit draft

/-! ### The sum over all machines -/

theorem total_eq_sum (numbers : List Nat) : total numbers = numbers.sum := by
  induction numbers with
  | nil => rfl
  | cons number numbers inductionHypothesis =>
    rw [total_cons, List.sum_cons, inductionHypothesis]

/-- The memory that a table of machines claims. -/
def claimedMb (table : Keyed RegistryEntry) : Nat :=
  total (table.values.map (·.vm.memoryMb.toNat))

/-- Rows that are the same up to their order claim the same memory. -/
theorem claimedMb_eq_of_perm {table : Keyed RegistryEntry} {key : String} {entry : RegistryEntry}
    {rows : List (String × RegistryEntry)} (perm : table.rows.Perm ((key, entry) :: rows)) :
    claimedMb table = entry.vm.memoryMb.toNat + claimedMb ⟨rows⟩ := by
  unfold claimedMb Keyed.values
  rw [total_eq_sum, total_eq_sum, ((perm.map _).map _).sum_eq]
  rfl

theorem claimedMb_insert {table : Keyed RegistryEntry} {key : String}
    (entry : RegistryEntry) (free : table.find? key = none) :
    claimedMb (table.insert key entry) = entry.vm.memoryMb.toNat + claimedMb table :=
  claimedMb_eq_of_perm (table.rows_insert_perm key entry free)

theorem claimedMb_erase {table : Keyed RegistryEntry} (unambiguous : table.Unambiguous)
    {key : String} {entry : RegistryEntry} (found : table.find? key = some entry) :
    claimedMb table = entry.vm.memoryMb.toNat + claimedMb (table.erase key) :=
  claimedMb_eq_of_perm (unambiguous.rows_erase_perm found)

/-- The deeds tell how much memory the registry has given away. -/
theorem Registry.claimedMb_deeds (registry : Registry) :
    claimedMb registry.deeds = registry.committedMb := by
  unfold claimedMb committedMb deeds Keyed.view Keyed.values
  simp only [List.map_map]
  rfl

namespace Daemon

variable {daemon next : Daemon} {event : Event}

/-! ### Each machine and all together -/

/-- Each machine keeps to the limits, and all of them keep to the ceiling. -/
structure Bounded (daemon : Daemon) : Prop where
  each : ∀ (uuid : String) (deed : RegistryEntry), daemon.deeds.find? uuid = some deed →
    daemon.setup.settings.Allows deed.vm
  together : claimedMb daemon.deeds ≤ daemon.setup.settings.ceilingMb.toNat

theorem bounded_initial (setup : Setup) (tree : Tree) : (initial setup tree).Bounded where
  each _ _ entered := nomatch entered
  together := Nat.zero_le _

/-- An admitted machine keeps to the limits and fits under the ceiling. -/
theorem fits_of_admission {serial : Nat} {boot : Boot} {draws : Nat → Uuid} {time : UInt64}
    {vm : Vm} (ordered : daemon.setup.settings.minMemoryMb ≤ daemon.setup.settings.maxMemoryMb)
    (outcome : (daemon.admission serial boot draws time).outcome = .admitted vm) :
    daemon.setup.settings.Allows vm ∧
      vm.memoryMb.toNat + claimedMb daemon.deeds ≤ daemon.setup.settings.ceilingMb.toNat := by
  obtain ⟨-, fits, ⟨identity, -, rfl⟩, -, -⟩ := Shared.accept_eq_admitted outcome
  have allows := Settings.allows_fit ordered boot.draft
  refine ⟨⟨allows.lowest, allows.highest, allows.cpus⟩, ?_⟩
  rw [deeds, Registry.claimedMb_deeds, Nat.add_comm]
  exact fits

/-- Every step keeps the machines within their limits and all of them below the ceiling. -/
theorem Bounded.step (bounded : daemon.Bounded) (owned : daemon.Owned)
    (ordered : daemon.setup.settings.minMemoryMb ≤ daemon.setup.settings.maxMemoryMb)
    (rule : Rule daemon event next) : next.Bounded := by
  have setup := setup_of_rule rule
  cases turn_of_rule rule with
  | arrival draft kept boots deeds =>
    exact ⟨setup ▸ deeds ▸ bounded.each, setup ▸ deeds ▸ bounded.together⟩
  | admission serial boot draws time vm asked found phase outcome free boots deeds =>
    obtain ⟨allows, fits⟩ := fits_of_admission ordered outcome
    refine ⟨fun uuid deed entered => ?_, ?_⟩
    · rw [deeds, Keyed.find?_insert] at entered
      rw [setup]
      split at entered
      · obtain rfl := Option.some.inj entered
        exact allows
      · exact bounded.each uuid deed entered
    · rw [deeds, claimedMb_insert _ free, setup]
      exact fits
  | release serial boot after released found held freed phased begun abides boots deeds =>
    refine ⟨fun uuid deed entered => ?_, ?_⟩
    · rw [deeds, Keyed.find?_erase] at entered
      rw [setup]
      split at entered
      · cases entered
      · exact bounded.each uuid deed entered
    · have before := claimedMb_erase owned.unambiguous (owned.held serial boot found held)
      have fits := bounded.together
      rw [before] at fits
      rw [deeds, setup]
      exact Nat.le_of_add_left_le fits
  | course serial boot after kept found onward boots deeds =>
    exact ⟨setup ▸ deeds ▸ bounded.each, setup ▸ deeds ▸ bounded.together⟩
  | aside kept boots deeds =>
    exact ⟨setup ▸ deeds ▸ bounded.each, setup ▸ deeds ▸ bounded.together⟩

/-- A daemon keeps what it was set up with. -/
theorem setup_of_reachable {start : Daemon} (reached : Reachable start daemon) :
    daemon.setup = start.setup := by
  induction reached with
  | start => rfl
  | step event _ stepped inductionHypothesis =>
    exact (setup_of_rule (rule_of_step? stepped)).trans inductionHypothesis

theorem bounded_of_reachable {setup : Setup} {tree : Tree}
    (ordered : setup.settings.minMemoryMb ≤ setup.settings.maxMemoryMb)
    (reached : Reachable (initial setup tree) daemon) : daemon.Bounded := by
  induction reached with
  | start => exact bounded_initial setup tree
  | step event earlier stepped inductionHypothesis =>
    have same := setup_of_reachable earlier
    exact inductionHypothesis.step (owned_of_reachable earlier) (by rw [same]; exact ordered)
      (rule_of_step? stepped)

/-- What is said of the deeds, said of the entries. -/
theorem Bounded.row (bounded : daemon.Bounded) (owned : daemon.Owned) {uuid : String}
    {entry : RegistryEntry} (member : (uuid, entry) ∈ daemon.shared.registry.active.rows) :
    daemon.setup.settings.Allows entry.vm := by
  have unambiguous := (Registry.unambiguous_deeds_iff _).mp owned.unambiguous
  have allows := bounded.each uuid entry.deed (by
    rw [deeds, Registry.find?_deeds, unambiguous.find?_of_mem member]
    rfl)
  exact ⟨allows.lowest, allows.highest, allows.cpus⟩

/-! ### Who is refused for memory -/

end Daemon

/-- A request that is to be undone is so for another reason than memory. -/
def Boot.IsBlameless (boot : Boot) : Prop :=
  ∀ error, boot.request = .undoing error → error.isResourceBound = false

namespace Daemon

variable {daemon next : Daemon} {event : Event}

theorem isBlameless_of_advance {serial : Nat} {boot after : Boot}
    (advance : Advance daemon event next serial boot after) (blameless : boot.IsBlameless) :
    after.IsBlameless := by
  cases advance with
  | admission | refusal | withdrawal | handOver | answer => exact nofun
  | preparation phase pid before alone reason => exact reason
  | race | record | settlement | reaper => exact blameless

theorem isBlameless_of_reachable {setup : Setup} {tree : Tree}
    (reached : Reachable (initial setup tree) daemon) :
    ∀ (serial : Nat) (boot : Boot), daemon.boots[serial]? = some boot → boot.IsBlameless := by
  induction reached with
  | start => exact fun _ _ found => nomatch found
  | step event _ stepped inductionHypothesis =>
    intro serial after present
    rcases (advances_of_rule (rule_of_step? stepped)).origin present with
      ⟨draft, rfl⟩ | ⟨boot, found, rfl | advance⟩
    · exact nofun
    · exact inductionHypothesis serial after found
    · exact isBlameless_of_advance advance (inductionHypothesis serial boot found)

/-- Who has a refusal for memory had it before or was just judged. -/
theorem judged_of_advance {serial : Nat} {boot after : Boot} {claimed ceiling : Nat}
    (advance : Advance daemon event next serial boot after) (blameless : boot.IsBlameless)
    (refused : after.request = .answered (.error (.resourceBound claimed ceiling))) :
    boot.request = after.request ∨
      boot.request = .arrived ∧ ∃ draws time, event = .reserve serial draws time := by
  cases advance with
  | refusal draws time error asked phase outcome => exact .inr ⟨phase, draws, time, asked⟩
  | preparation phase pid before alone reason =>
    rw [show phase = _ from refused] at alone
    cases alone
  | withdrawal error phase =>
    injection refused with refused
    injection refused with refused
    cases refused ▸ blameless error phase
  | answer phase settled =>
    injection refused with refused
    cases Boot.isResourceBound_of_answerOf refused
  | admission | handOver => cases refused
  | race | record | settlement | reaper => exact .inl rfl

/-- A refusal for memory is given by the step that judges the request. -/
theorem judged_of_step {setup : Setup} {tree : Tree} (reached : Reachable (initial setup tree) daemon)
    (stepped : daemon.step? event = some next) {serial : Nat} {after : Boot}
    (found : next.boots[serial]? = some after) {claimed ceiling : Nat}
    (refused : after.request = .answered (.error (.resourceBound claimed ceiling))) :
    ∃ boot, daemon.boots[serial]? = some boot ∧ (boot.request = after.request ∨
      boot.request = .arrived ∧ ∃ draws time, event = .reserve serial draws time) := by
  rcases (advances_of_rule (rule_of_step? stepped)).origin found with
    ⟨draft, rfl⟩ | ⟨boot, present, rfl | advance⟩
  · cases refused
  · exact ⟨after, present, .inl rfl⟩
  · have blameless := isBlameless_of_reachable reached serial boot present
    exact ⟨boot, present, judged_of_advance advance blameless refused⟩

/-- Unless the daemon is closing, a request that is judged breaks off exactly if a word cannot
tell the sum, and is refused for memory exactly if the sum is told and too much. -/
theorem refused_iff_of_reserve {serial : Nat} {boot after : Boot} {draws : Nat → Uuid}
    {time : UInt64} (found : daemon.boots[serial]? = some boot)
    (there : (daemon.reserve serial boot draws time).boots[serial]? = some after)
    (opened : after.request ≠ .answered (.error (.validation "daemon is shutting down"))) :
    (after.request = .unjudged ↔
      Text.word64 ≤ daemon.shared.registry.committedMb +
        (daemon.setup.settings.fit boot.draft).memoryMb.toNat) ∧
    ∀ claimed ceiling, after.request = .answered (.error (.resourceBound claimed ceiling)) ↔
      daemon.setup.settings.ceilingMb.toNat < claimed ∧ claimed < Text.word64 ∧
        claimed = daemon.shared.registry.committedMb +
          (daemon.setup.settings.fit boot.draft).memoryMb.toNat ∧
        ceiling = daemon.setup.settings.ceilingMb.toNat := by
  obtain ⟨refused, broken⟩ := judged_reserve draws time found there
  have closing : daemon.shared.closing = false := by
    refine Bool.eq_false_iff.mpr fun closing => opened ((refused _).mpr ?_)
    unfold admission
    rw [Shared.accept_of_closing _ _ _ _ _ _ closing]
  exact ⟨broken.trans (Shared.accept_eq_broken_iff _ _ _ _ _ _ closing),
    fun claimed ceiling => (refused _).trans
      (Shared.accept_eq_resourceBound_iff _ _ _ _ _ _ closing claimed ceiling)⟩

/-! ### The result -/

/-- The memory of the machines stays within the ceiling, whatever the order of the steps. Each
registered machine has memory in the allowed range and a processor, and all of them together,
whatever state they are in, claim no more than the ceiling. A request that is judged and not
refused because the daemon is closing breaks off exactly if the sum with its own memory, moved
into the range, leaves the words; as long as that sum can be told, the request is refused for
memory exactly if the sum is above the ceiling, and then the refusal names it. Nobody is refused
for memory in any other step. -/
theorem memory_within_ceiling {config : Config} {environment : Environment} {hostOctets : UInt64}
    {setup : Setup} {tree : Tree} {daemon : Daemon} (valid : config.validate = .ok ())
    (limits : setup.settings = config.settings environment hostOctets)
    (reached : Reachable (initial setup tree) daemon) :
    (∀ uuid entry, (uuid, entry) ∈ daemon.shared.registry.active.rows →
      config.minMemoryMb ≤ entry.vm.memoryMb ∧ entry.vm.memoryMb ≤ config.maxMemoryMb ∧
        1 ≤ entry.vm.cpus) ∧
    daemon.shared.registry.committedMb ≤ (config.ceilingMb hostOctets).toNat ∧
    (∀ serial boot draws time, daemon.boots[serial]? = some boot → boot.request = .arrived →
      ∃ next after, daemon.step? (.reserve serial draws time) = some next ∧
        next.boots[serial]? = some after ∧
        (after.request ≠ .answered (.error (.validation "daemon is shutting down")) →
          (after.request = .unjudged ↔
            2 ^ 64 ≤ daemon.shared.registry.committedMb +
              (clampMemory boot.draft.memoryMb config.minMemoryMb config.maxMemoryMb).toNat) ∧
          ∀ claimed ceiling, after.request = .answered (.error (.resourceBound claimed ceiling)) ↔
            (config.ceilingMb hostOctets).toNat < claimed ∧ claimed < 2 ^ 64 ∧
              claimed = daemon.shared.registry.committedMb +
                (clampMemory boot.draft.memoryMb config.minMemoryMb config.maxMemoryMb).toNat ∧
              ceiling = (config.ceilingMb hostOctets).toNat)) ∧
    (∀ event next serial after claimed ceiling, daemon.step? event = some next →
      next.boots[serial]? = some after →
      after.request = .answered (.error (.resourceBound claimed ceiling)) →
      ∃ boot, daemon.boots[serial]? = some boot ∧ (boot.request = after.request ∨
        boot.request = .arrived ∧ ∃ draws time, event = .reserve serial draws time)) := by
  have ordered : setup.settings.minMemoryMb ≤ setup.settings.maxMemoryMb := by
    rw [limits]
    exact Config.minMemoryMb_le_of_validate valid
  have owned := owned_of_reachable reached
  have bounded := bounded_of_reachable ordered reached
  have same : daemon.setup = setup := setup_of_reachable reached
  have settings : daemon.setup.settings = config.settings environment hostOctets := by
    rw [same, limits]
  refine ⟨fun uuid entry member => ?_, ?_, fun serial boot draws time found phase => ?_,
    fun event next serial after claimed ceiling stepped found refused =>
      judged_of_step reached stepped found refused⟩
  · have allows := bounded.row owned member
    rw [settings] at allows
    exact ⟨allows.lowest, allows.highest, allows.cpus⟩
  · have together := bounded.together
    rw [settings, deeds, Registry.claimedMb_deeds] at together
    exact together
  · have inside := (List.getElem?_eq_some_iff.mp found).1
    refine ⟨_, _, step?_of_rule (.reserve draws time found phase), List.getElem?_set_self inside,
      fun opened => ?_⟩
    have judged := refused_iff_of_reserve found (List.getElem?_set_self inside) opened
    rw [settings] at judged
    exact judged

/-- A configuration with room for one large machine. -/
def roomForOne : Config :=
  { Config.standard with runRoot := some "/", maxTotalMb := some 8192 }

theorem validate_roomForOne : roomForOne.validate = .ok () := by
  decide +kernel

/-- Two requests ask for more than half of the room each, and the first one is admitted. -/
def oneOfTwoAdmitted : List Event :=
  let large : Vm := { Vm.draft "alpha" "1.2.3" with memoryMb := 6000 }
  [.submit large, .submit large, .reserve 0 (drawing 1) 7]

theorem refused_oneOfTwoAdmitted :
    (imageless.run? oneOfTwoAdmitted).any (fun daemon =>
      daemon.boots[1]?.any fun boot => boot.draft.memoryMb == 6000 &&
        boot.request matches .arrived &&
        (daemon.reserve 1 boot (drawing 2) 8).boots[1]?.any fun after =>
          after.request matches .answered (.error (.resourceBound 12000 8192)))
      = true := by
  decide +kernel

theorem memory_within_ceiling_of_roomForOne :
    ∃ daemon boot, Reachable imageless daemon ∧ daemon.boots[1]? = some boot ∧
      boot.request = .arrived ∧ daemon.shared.registry.committedMb ≤ 8192 ∧
      ∃ next after, daemon.step? (.reserve 1 (drawing 2) 8) = some next ∧
        next.boots[1]? = some after ∧
        after.request = .answered (.error (.resourceBound 12000 8192)) ∧
        8192 < daemon.shared.registry.committedMb + 6000 := by
  obtain ⟨daemon, ran, judged⟩ := (Option.any_eq_true _ _).mp refused_oneOfTwoAdmitted
  obtain ⟨boot, found, refused⟩ := (Option.any_eq_true _ _).mp judged
  simp only [Bool.and_eq_true, beq_iff_eq] at refused
  obtain ⟨⟨memory, phase⟩, refused⟩ := refused
  have arrived : boot.request = .arrived := by
    split at phase
    · assumption
    · cases phase
  have reached : Reachable imageless daemon := reachable_iff.mpr ⟨_, ran⟩
  have limits : imageless.setup.settings = roomForOne.settings ⟨none, none, none, none⟩ 0 := by
    decide +kernel
  obtain ⟨-, together, judge, -⟩ := memory_within_ceiling validate_roomForOne limits reached
  obtain ⟨next, after, stepped, there, exactly⟩ := judge 1 boot (drawing 2) 8 found arrived
  obtain rfl := Option.some.inj
    ((step?_of_rule (.reserve (drawing 2) 8 found arrived)).symm.trans stepped)
  rw [there] at refused
  have bound : after.request = .answered (.error (.resourceBound 12000 8192)) := by
    simp only [Option.any_some] at refused
    split at refused
    · assumption
    · cases refused
  obtain ⟨above, -, sum, -⟩ :=
    ((exactly (by rw [bound]; exact nofun)).2 12000 8192).mp bound
  rw [memory] at sum
  exact ⟨daemon, boot, reached, found, arrived, together, _, after, stepped, there, bound,
    sum ▸ above⟩

end Daemon

end VmFleet
