/-
This file proves that a UUID is held by one machine at most, however it was spelled
by those who asked for it. A search for an identity only ever tries texts that are
canonical or spell no UUID at all, and the derivation of a hardware address refuses
the latter, so what is entered is canonical. Nothing that happens to an entry later
changes its identity or its address. Canonical texts are different exactly if the
UUIDs are, and so are the directories that are named by them.
-/

import VmFleet.Proofs.Identity.Uuid
import VmFleet.Proofs.Supervision.Ownership

namespace VmFleet

open VmFleet.Text

/-! ### The search -/

/-- A text that is the canonical one of the UUID it spells, if it spells one. -/
def IsSettled (text : String) : Prop :=
  ∀ identity, Uuid.parse? text = some identity → text = identity.canonical

theorem isSettled_canonical (identity : Uuid) : IsSettled identity.canonical := by
  intro other spelled
  rw [Uuid.parse?_canonical] at spelled
  rw [Option.some.inj spelled]

theorem isSettled_normalize (requested : String) : IsSettled (Registry.normalize requested) := by
  unfold Registry.normalize
  split
  · exact isSettled_canonical _
  · rename_i unspelled
    intro identity spelled
    rw [unspelled] at spelled
    cases spelled

/-- What a search finds is settled and has the hardware address that was derived from it. -/
theorem tryCandidates_eq_ok {registry : Registry} {macs : MacSource} {draws : Nat → Uuid}
    {attempts drawn : Nat} {asked : List String} {candidate : String} {identity : Identity}
    (settled : IsSettled candidate)
    (found : (registry.tryCandidates macs draws attempts drawn asked candidate).outcome =
      .ok identity) :
    IsSettled identity.uuid ∧ ∃ before, macs before identity.uuid = .ok identity.mac := by
  induction attempts generalizing drawn asked candidate with
  | zero => cases found
  | succ attempts inductionHypothesis =>
    unfold Registry.tryCandidates at found
    simp only at found
    split at found
    · exact inductionHypothesis (isSettled_canonical _) found
    · split at found
      · rename_i mac derived
        obtain rfl := Except.ok.inj found
        exact ⟨settled, asked.length, derived⟩
      · exact inductionHypothesis (isSettled_canonical _) found

/-- The record carries the canonical text of a UUID and the hardware address of that UUID. -/
def Vm.IsIdentified (vm : Vm) : Prop :=
  ∃ identity : Uuid, identity.isNil = false ∧ vm.uuid = identity.canonical ∧
    vm.mac = Mac.text (Mac.octetsOfUuid identity)

/-- An address derived from a settled text identifies a machine. -/
theorem isIdentified_of_derive {text mac : String} (settled : IsSettled text)
    (derived : MacSource.ofOctets 0 text = .ok mac) :
    ∃ identity : Uuid, identity.isNil = false ∧ text = identity.canonical ∧
      mac = Mac.text (Mac.octetsOfUuid identity) := by
  unfold MacSource.ofOctets Mac.derive at derived
  cases spelled : Uuid.parse? text with
  | none =>
    rw [spelled] at derived
    cases derived
  | some identity =>
    cases zero : identity.isNil with
    | true =>
      simp only [spelled, zero, if_true] at derived
      cases derived
    | false =>
      simp only [spelled, zero, Bool.false_eq_true, if_false] at derived
      exact ⟨identity, zero, settled identity spelled, (Except.ok.inj derived).symm⟩

namespace Daemon

variable {daemon next : Daemon} {event : Event}

/-! ### What the entries say -/

/-- Each entry stands under the identity in its record, and that is a settled one. -/
structure Identified (daemon : Daemon) : Prop where
  macs : daemon.setup.macs = MacSource.ofOctets
  entries : ∀ (uuid : String) (deed : RegistryEntry), daemon.deeds.find? uuid = some deed →
    deed.vm.uuid = uuid ∧ deed.vm.IsIdentified

/-- A machine that is admitted has an identity. -/
theorem isIdentified_of_admission {serial : Nat} {boot : Boot} {draws : Nat → Uuid} {time : UInt64}
    {vm : Vm} (macs : daemon.setup.macs = MacSource.ofOctets)
    (outcome : (daemon.admission serial boot draws time).outcome = .admitted vm) : vm.IsIdentified := by
  obtain ⟨-, -, ⟨identity, search, rfl⟩, -, -⟩ := Shared.accept_eq_admitted outcome
  obtain ⟨settled, before, derived⟩ := tryCandidates_eq_ok (isSettled_normalize _) search
  have same : daemon.macs before identity.uuid = MacSource.ofOctets 0 identity.uuid := by
    rw [Daemon.macs, macs]
    rfl
  exact isIdentified_of_derive settled (same.symm.trans derived)

theorem Identified.step (identified : daemon.Identified) (rule : Rule daemon event next) :
    next.Identified := by
  refine ⟨(setup_of_rule rule).symm ▸ identified.macs, fun uuid deed entered => ?_⟩
  cases turn_of_rule rule with
  | arrival draft kept boots deeds => exact identified.entries uuid deed (deeds ▸ entered)
  | admission serial boot draws time vm asked found phase outcome free boots deeds =>
    rw [deeds, Keyed.find?_insert] at entered
    split at entered
    · rename_i same
      obtain rfl := Option.some.inj entered
      exact ⟨same, isIdentified_of_admission identified.macs outcome⟩
    · exact identified.entries uuid deed entered
  | release serial boot after released found held freed phased begun abides boots deeds =>
    rw [deeds, Keyed.find?_erase] at entered
    split at entered
    · cases entered
    · exact identified.entries uuid deed entered
  | course serial boot after kept found onward boots deeds =>
    exact identified.entries uuid deed (deeds ▸ entered)
  | aside kept boots deeds => exact identified.entries uuid deed (deeds ▸ entered)

theorem identified_of_reachable {setup : Setup} {tree : Tree}
    (macs : setup.macs = MacSource.ofOctets) (reached : Reachable (initial setup tree) daemon) :
    daemon.Identified := by
  induction reached with
  | start => exact ⟨macs, fun _ _ entered => nomatch entered⟩
  | step event _ stepped inductionHypothesis =>
    exact inductionHypothesis.step (rule_of_step? stepped)

theorem owned_of_reachable {setup : Setup} {tree : Tree}
    (reached : Reachable (initial setup tree) daemon) : daemon.Owned := by
  induction reached with
  | start => exact owned_initial setup tree
  | step event _ stepped inductionHypothesis => exact inductionHypothesis.step stepped

/-- What an entry says of its machine, seen from the table itself. -/
theorem Identified.row (identified : daemon.Identified) (owned : daemon.Owned) (uuid : String)
    (entry : RegistryEntry) (member : (uuid, entry) ∈ daemon.shared.registry.active.rows) :
    uuid = entry.vm.uuid ∧ entry.vm.IsIdentified := by
  have unambiguous := (Registry.unambiguous_deeds_iff _).mp owned.unambiguous
  have entered : daemon.deeds.find? uuid = some entry.deed := by
    rw [deeds, Registry.find?_deeds, unambiguous.find?_of_mem member]
    rfl
  obtain ⟨same, settled⟩ := identified.entries uuid entry.deed entered
  exact ⟨same.symm, settled⟩

/-- The entries of two keys differ in whatever tells canonical texts apart. -/
theorem Identified.pairwise (identified : daemon.Identified) (owned : daemon.Owned) {Sight : Type}
    (sight : String → Sight)
    (tells : ∀ left right : Uuid, sight left.canonical = sight right.canonical → left = right) :
    daemon.shared.registry.active.rows.Pairwise fun left right => sight left.1 ≠ sight right.1 := by
  have unambiguous := (Registry.unambiguous_deeds_iff _).mp owned.unambiguous
  have keys : daemon.shared.registry.active.rows.Pairwise fun left right => left.1 ≠ right.1 :=
    List.pairwise_map.mp unambiguous
  refine keys.imp_of_mem fun {left right} memberLeft memberRight different seen => different ?_
  obtain ⟨keyLeft, identity, -, textLeft, -⟩ := identified.row owned left.1 left.2 memberLeft
  obtain ⟨keyRight, other, -, textRight, -⟩ := identified.row owned right.1 right.2 memberRight
  rw [keyLeft, keyRight, textLeft, textRight] at seen
  rw [keyLeft, keyRight, textLeft, textRight, tells identity other seen]

/-- The machine of a request holds a UUID. -/
def HoldsUuid (daemon : Daemon) (serial : Nat) (identity : Uuid) : Prop :=
  ∃ uuid vm, (uuid, ⟨vm, serial⟩) ∈ daemon.shared.registry.active.rows ∧
    Uuid.parse? uuid = some identity

/-! ### The result -/

/-- A UUID is held by one machine at most, whatever was asked for and in whatever order the
steps come. Each entry stands under the identity in its record, which is the canonical text of
a UUID that is not nil, with the hardware address derived from it. So no two machines have one
UUID, requests that spell one UUID differently do not both hold it, and the machines have their
own directories directly below the place for running machines. -/
theorem identities_unique {setup : Setup} {tree : Tree} {daemon : Daemon}
    (macs : setup.macs = MacSource.ofOctets) (reached : Reachable (initial setup tree) daemon) :
    (∀ uuid entry, (uuid, entry) ∈ daemon.shared.registry.active.rows →
      uuid = entry.vm.uuid ∧ ∃ identity : Uuid, identity.isNil = false ∧
        uuid = identity.canonical ∧ entry.vm.mac = Mac.text (Mac.octetsOfUuid identity)) ∧
    (daemon.shared.registry.active.rows.Pairwise fun left right =>
      Uuid.parse? left.1 ≠ Uuid.parse? right.1) ∧
    (∀ first second identity, daemon.HoldsUuid first identity → daemon.HoldsUuid second identity →
      first = second) ∧
    (∀ uuid entry, (uuid, entry) ∈ daemon.shared.registry.active.rows →
      (RunDirectory.ofUuid daemon.setup.settings.runRoot uuid).directory.IsDirectChild
        daemon.setup.settings.runRoot) ∧
    (daemon.shared.registry.active.rows.Pairwise fun left right =>
      (RunDirectory.ofUuid daemon.setup.settings.runRoot left.1).directory.names ≠
        (RunDirectory.ofUuid daemon.setup.settings.runRoot right.1).directory.names) := by
  have identified := identified_of_reachable macs reached
  have owned := owned_of_reachable reached
  have row := identified.row owned
  refine ⟨fun uuid entry member => ?_, ?_, ?_, fun uuid entry member => ?_, ?_⟩
  · obtain ⟨key, identity, proper, text, address⟩ := row uuid entry member
    exact ⟨key, identity, proper, key.trans text, address⟩
  · refine identified.pairwise owned Uuid.parse? fun left right same => ?_
    rw [Uuid.parse?_canonical, Uuid.parse?_canonical] at same
    exact Option.some.inj same
  · rintro first second identity ⟨uuid, vm, member, spelled⟩ ⟨other, record, present, same⟩
    obtain ⟨key, named, -, text, -⟩ := row uuid _ member
    obtain ⟨otherKey, otherNamed, -, otherText, -⟩ := row other _ present
    rw [key, text, Uuid.parse?_canonical] at spelled
    rw [otherKey, otherText, Uuid.parse?_canonical] at same
    obtain rfl := Option.some.inj (spelled.trans same.symm)
    have unambiguous := (Registry.unambiguous_deeds_iff _).mp owned.unambiguous
    have here := unambiguous.find?_of_mem member
    have there := unambiguous.find?_of_mem present
    rw [key, text] at here
    rw [otherKey, otherText, here] at there
    exact congrArg RegistryEntry.halt (Option.some.inj there)
  · obtain ⟨key, identity, -, text, -⟩ := row uuid entry member
    rw [key, text]
    exact Path.isDirectChild_child (Uuid.isProper_canonical identity)
  · refine identified.pairwise owned
      (fun text => (RunDirectory.ofUuid daemon.setup.settings.runRoot text).directory.names)
      fun left right same => ?_
    replace same : (daemon.setup.settings.runRoot.child left.canonical).names =
        (daemon.setup.settings.runRoot.child right.canonical).names := same
    rw [Path.names_child (Uuid.isProper_canonical left),
      Path.names_child (Uuid.isProper_canonical right)] at same
    have octets := List.singleton_inj.mp (List.append_cancel_left same)
    exact Uuid.canonical_injective (octetsOf_injective octets)

/-- Draws one identity after the other, each one of a single octet. -/
def drawing (first : Nat) : Nat → Uuid :=
  fun number => ⟨List.replicate 16 (UInt8.ofNat (first + number)), List.length_replicate⟩

/-- Two requests for one UUID, one in capitals and braces and one without hyphens. -/
def twoSpellings : List Event :=
  let spelled (uuid : String) : Event := .submit { Vm.draft "alpha" "1.2.3" with uuid }
  let drawn : Nat → Uuid := fun _ => ⟨List.replicate 16 5, List.length_replicate⟩
  [spelled "\x7b6F1C2A44-0B7E-4C55-9D1A-3C2B1A0F9E88\x7d", spelled "6f1c2a440b7e4c559d1a3c2b1a0f9e88",
    .reserve 1 drawn 7, .reserve 0 drawn 8]

theorem entries_twoSpellings :
    (imageless.run? twoSpellings).any (fun daemon =>
      daemon.shared.registry.active.rows.map (fun (uuid, entry) => (uuid, entry.halt)) ==
        [("05050505-0505-0505-0505-050505050505", 0), ("6f1c2a44-0b7e-4c55-9d1a-3c2b1a0f9e88", 1)])
      = true := by
  decide +kernel

theorem identities_unique_of_twoSpellings :
    ∃ daemon identity, Reachable imageless daemon ∧ daemon.HoldsUuid 1 identity ∧
      ¬ daemon.HoldsUuid 0 identity := by
  obtain ⟨daemon, ran, keys⟩ := (Option.any_eq_true _ _).mp entries_twoSpellings
  have reached : Reachable imageless daemon := reachable_iff.mpr ⟨_, ran⟩
  have member : ("6f1c2a44-0b7e-4c55-9d1a-3c2b1a0f9e88", 1) ∈
      daemon.shared.registry.active.rows.map fun (uuid, entry) => (uuid, entry.halt) := by
    rw [eq_of_beq keys]
    exact .tail _ (.head _)
  obtain ⟨⟨uuid, ⟨vm, _⟩⟩, row, same⟩ := List.mem_map.mp member
  obtain ⟨rfl, rfl⟩ := Prod.mk.inj same
  obtain ⟨entries, -, once, -, -⟩ := identities_unique rfl reached
  obtain ⟨-, identity, -, text, -⟩ := entries _ _ row
  have holds : daemon.HoldsUuid 1 identity :=
    ⟨_, vm, row, (congrArg Uuid.parse? text).trans (Uuid.parse?_canonical identity)⟩
  refine ⟨daemon, identity, reached, holds, fun other => ?_⟩
  exact absurd (once 0 1 identity other holds) (by decide)

end Daemon

end VmFleet
