/-
This file proves how an admission ends. What is admitted fits under the ceiling and had
a free identity, and nothing else changes what the lock guards. A daemon that is closing
refuses every machine whatever it asks for and does not look any further. Otherwise the
sum with the new machine decides: where a word cannot tell it the request breaks off;
where it is told and above the ceiling the request is refused for memory, and the refusal
names that sum. What is left is a search that runs out of identities; an identity that
was found is free, so it is never refused as taken.
-/

import VmFleet.Proofs.Registry
import VmFleet.Proofs.Supervision.Rules

namespace VmFleet

/-- A search that ends without an identity has run out of attempts. -/
theorem Registry.eq_of_tryCandidates_error {registry : Registry} {macs : MacSource}
    {draws : Nat → Uuid} {attempts drawn : Nat} {asked : List String} {candidate : String}
    {error : FleetError}
    (failed : (registry.tryCandidates macs draws attempts drawn asked candidate).outcome =
      .error error) : error = .identityExhausted maxIdentityAttempts := by
  induction attempts generalizing drawn asked candidate with
  | zero => exact (Except.error.inj failed).symm
  | succ attempts inductionHypothesis =>
    unfold tryCandidates at failed
    simp only at failed
    split at failed
    · exact inductionHypothesis failed
    · split at failed
      · cases failed
      · exact inductionHypothesis failed

namespace Shared

/-- A sum is told exactly if it fits a word, and then it is the true one. -/
theorem claimedWith?_eq_some_iff {shared : Shared} {vm : Vm} {claimed : Nat} :
    shared.claimedWith? vm = some claimed ↔
      shared.registry.committedMb + vm.memoryMb.toNat < Text.word64 ∧
        shared.registry.committedMb + vm.memoryMb.toNat = claimed := by
  unfold claimedWith?
  simp only [Option.ite_none_right_eq_some, Option.some_inj]

/-- What it takes to be admitted, and what an admission enters. -/
theorem accept_eq_admitted {shared : Shared} {settings : Settings} {macs : MacSource}
    {draws : Nat → Uuid} {time : UInt64} {token : HaltToken} {draft vm : Vm}
    (accepted : (shared.accept settings macs draws time token draft).outcome = .admitted vm) :
    shared.closing = false ∧
      shared.registry.committedMb + (settings.fit draft).memoryMb.toNat ≤
        settings.ceilingMb.toNat ∧
      (∃ identity,
        (shared.registry.resolveIdentity macs draws draft.uuid).outcome = .ok identity ∧
          vm = enrol (settings.fit draft) identity time) ∧
      shared.registry.active.find? vm.uuid = none ∧
      (shared.accept settings macs draws time token draft).shared =
        { shared with
          registry := { shared.registry with
            active := shared.registry.active.insert vm.uuid ⟨vm, token⟩ } } := by
  unfold accept at accepted ⊢
  simp only at accepted ⊢
  split at accepted
  · cases accepted
  · rename_i opened
    rw [if_neg opened]
    cases told : shared.claimedWith? (settings.fit draft) with
    | none =>
      simp only [told] at accepted
      cases accepted
    | some claimed =>
      simp only [told] at accepted ⊢
      split at accepted
      · cases accepted
      · rename_i fits
        rw [if_neg fits]
        cases search :
          (shared.registry.resolveIdentity macs draws (settings.fit draft).uuid).outcome with
        | error error =>
          simp only [search] at accepted
          cases accepted
        | ok identity =>
          simp only [search] at accepted ⊢
          cases reserved :
            shared.registry.reserve (enrol (settings.fit draft) identity time) token with
          | error error =>
            simp only [reserved] at accepted
            cases accepted
          | ok registry =>
            simp only [reserved] at accepted ⊢
            obtain rfl := Ruling.admitted.inj accepted
            obtain ⟨free, rfl⟩ := Registry.reserve_eq_ok reserved
            obtain rfl := (claimedWith?_eq_some_iff.mp told).2
            exact ⟨by simpa using opened, Nat.le_of_not_lt fits, ⟨identity, search, rfl⟩, free, rfl⟩

/-- Only an admission changes anything. -/
theorem accept_eq_self {shared : Shared} {settings : Settings} {macs : MacSource}
    {draws : Nat → Uuid} {time : UInt64} {token : HaltToken} {draft : Vm}
    (spurned : ∀ vm,
      (shared.accept settings macs draws time token draft).outcome ≠ .admitted vm) :
    (shared.accept settings macs draws time token draft).shared = shared := by
  unfold accept at spurned ⊢
  simp only at spurned ⊢
  split
  · rfl
  · rename_i opened
    rw [if_neg opened] at spurned
    split
    · rfl
    · rename_i claimed told
      simp only [told] at spurned
      split
      · rfl
      · rename_i fits
        rw [if_neg fits] at spurned
        split
        · rfl
        · rename_i identity search
          simp only [search] at spurned
          split
          · rfl
          · rename_i registry reserved
            simp only [reserved] at spurned
            exact absurd rfl (spurned _)

/-! ### Refusals -/

section Refusal

variable {shared : Shared} (settings : Settings) (macs : MacSource) (draws : Nat → Uuid)
  (time : UInt64) (token : HaltToken) (draft : Vm)

/-- A closing daemon refuses every machine and asks for nothing. -/
theorem accept_of_closing (closing : shared.closing = true) :
    shared.accept settings macs draws time token draft =
      ⟨shared, .refused (.validation "daemon is shutting down"), [], 0⟩ := by
  unfold accept
  exact if_pos closing

/-- A daemon that is open breaks the admission off exactly if a word cannot tell the sum. -/
theorem accept_eq_broken_iff (opened : shared.closing = false) :
    (shared.accept settings macs draws time token draft).outcome = .broken ↔
      Text.word64 ≤ shared.registry.committedMb + (settings.fit draft).memoryMb.toNat := by
  unfold accept claimedWith?
  simp only
  rw [if_neg (by simp [opened])]
  split
  · rename_i untold
    split at untold
    · cases untold
    · rename_i large
      exact iff_of_true rfl (Nat.le_of_not_lt large)
  · rename_i total told
    split at told
    · rename_i small
      refine iff_of_false ?_ (Nat.not_le_of_lt small)
      split
      · exact nofun
      · split
        · exact nofun
        · split <;> exact nofun
    · cases told

/-- A daemon that is open refuses a machine for memory exactly if the sum is told and too
much. -/
theorem accept_eq_resourceBound_iff (opened : shared.closing = false) (claimed ceiling : Nat) :
    (shared.accept settings macs draws time token draft).outcome =
        .refused (.resourceBound claimed ceiling) ↔
      settings.ceilingMb.toNat < claimed ∧ claimed < Text.word64 ∧
        claimed = shared.registry.committedMb + (settings.fit draft).memoryMb.toNat ∧
        ceiling = settings.ceilingMb.toNat := by
  unfold accept
  simp only
  rw [if_neg (by simp [opened])]
  cases sum : shared.claimedWith? (settings.fit draft) with
  | none =>
    refine iff_of_false nofun ?_
    rintro ⟨-, small, rfl, -⟩
    rw [claimedWith?_eq_some_iff.mpr ⟨small, rfl⟩] at sum
    cases sum
  | some total =>
    obtain ⟨small, rfl⟩ := claimedWith?_eq_some_iff.mp sum
    simp only
    split
    · rename_i above
      constructor
      · intro refused
        cases refused
        exact ⟨above, small, rfl, rfl⟩
      · rintro ⟨-, -, rfl, rfl⟩
        rfl
    · rename_i fits
      refine iff_of_false ?_ ?_
      · -- what comes after the sum is never refused for memory
        split
        · rename_i error search
          rintro refused
          cases refused
          cases Registry.eq_of_tryCandidates_error search
        · split
          · rename_i reserved
            rintro refused
            cases refused
            unfold Registry.reserve at reserved
            split at reserved <;> cases reserved
          · exact nofun
      · rintro ⟨above, -, rfl, -⟩
        exact fits above

end Refusal

end Shared

namespace Daemon

variable {daemon : Daemon} {serial : Nat} {boot : Boot} (draws : Nat → Uuid) (time : UInt64)

/-- An admission whose sum can be told does not break off. -/
theorem admission_ne_broken
    (sum : daemon.shared.registry.committedMb +
      (daemon.setup.settings.fit boot.draft).memoryMb.toNat < Text.word64) :
    (daemon.admission serial boot draws time).outcome ≠ .broken := by
  intro broken
  unfold admission at broken
  cases closing : daemon.shared.closing with
  | true =>
    rw [Shared.accept_of_closing _ _ _ _ _ _ closing] at broken
    cases broken
  | false =>
    have large := (Shared.accept_eq_broken_iff _ _ _ _ _ _ closing).mp broken
    exact Nat.not_le_of_lt sum large

/-- A request that is not admitted changes nothing that the lock guards. -/
theorem shared_reserve
    (spurned : ∀ vm, (daemon.admission serial boot draws time).outcome ≠ .admitted vm) :
    (daemon.reserve serial boot draws time).shared = daemon.shared :=
  Shared.accept_eq_self spurned

/-- The phase of a request that was judged says how its admission ended. -/
theorem judged_reserve {after : Boot} (found : daemon.boots[serial]? = some boot)
    (there : (daemon.reserve serial boot draws time).boots[serial]? = some after) :
    (∀ error, after.request = .answered (.error error) ↔
      (daemon.admission serial boot draws time).outcome = .refused error) ∧
    (after.request = .unjudged ↔
      (daemon.admission serial boot draws time).outcome = .broken) := by
  have same := (List.getElem?_set_self (List.getElem?_eq_some_iff.mp found).1).symm.trans there
  obtain rfl := Option.some.inj same
  cases (daemon.admission serial boot draws time).outcome with
  | admitted vm => exact ⟨fun _ => ⟨nofun, nofun⟩, ⟨nofun, nofun⟩⟩
  | refused other => exact ⟨fun _ => ⟨by rintro ⟨⟩; rfl, by rintro ⟨⟩; rfl⟩, ⟨nofun, nofun⟩⟩
  | broken => exact ⟨fun _ => ⟨nofun, nofun⟩, ⟨fun _ => rfl, fun _ => rfl⟩⟩

/-- A closing daemon answers the request and changes nothing else. -/
theorem reserve_of_closing (closing : daemon.shared.closing = true) :
    daemon.reserve serial boot draws time =
      daemon.put serial
        { boot with request := .answered (.error (.validation "daemon is shutting down")) } := by
  have refused := Shared.accept_of_closing daemon.setup.settings daemon.macs draws time serial
    boot.draft closing
  unfold reserve admission
  rw [refused]
  rfl

end Daemon

end VmFleet
