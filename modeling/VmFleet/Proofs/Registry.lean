/-
This file proves what the operations of the registry do to the entry of one
identity and to the tokens. Most operations only touch the part of a record that
moves while a machine lives: its state, its process and its address. The rest of a
record, with the token beside it, is the deed of a machine. A deed is entered by a
reservation and struck by a removal, and nothing else changes the deeds, so
whatever is said about identities, owners and claimed memory is said about deeds.
-/

import VmFleet.Proofs.Keyed
import VmFleet.Registry.Selection

namespace VmFleet

/-! ### Moves -/

/-- A state that nothing follows allows no move. -/
theorem VmState.canMove_of_isTerminal {state : VmState} (terminal : state.isTerminal = true)
    (next : VmState) : state.canMove next = false := by
  cases state <;> first | rfl | cases terminal

/-- The record moved to a state, if the move is a legal one. -/
def Vm.moveTo (vm : Vm) (next : VmState) : Vm :=
  if vm.state.canMove next then { vm with state := next } else vm

/-- The part of a record that stays as it is while the machine is registered. -/
def Vm.lasting (vm : Vm) : Vm :=
  { vm with publicIp := "", pid := Vm.noPid, state := .reserved }

@[simp]
theorem Vm.lasting_moveTo (vm : Vm) (next : VmState) : (vm.moveTo next).lasting = vm.lasting := by
  unfold Vm.moveTo
  split <;> rfl

@[simp]
theorem Vm.pid_moveTo (vm : Vm) (next : VmState) : (vm.moveTo next).pid = vm.pid := by
  unfold Vm.moveTo
  split <;> rfl

@[simp]
theorem Vm.publicIp_moveTo (vm : Vm) (next : VmState) :
    (vm.moveTo next).publicIp = vm.publicIp := by
  unfold Vm.moveTo
  split <;> rfl

theorem Vm.state_moveTo (vm : Vm) (next : VmState) :
    (vm.moveTo next).state = if vm.state.canMove next then next else vm.state := by
  unfold Vm.moveTo
  split <;> rfl

/-- A machine that was moved to its end stays there when it is moved again. -/
theorem Vm.moveTo_halting_halting (vm : Vm) :
    (vm.moveTo .halting).moveTo .halting = vm.moveTo .halting := by
  unfold Vm.moveTo
  split <;> rfl

/-- What an entry says for as long as it stands. -/
def RegistryEntry.deed (entry : RegistryEntry) : RegistryEntry :=
  { entry with vm := entry.vm.lasting }

namespace Registry

/-! ### One entry -/

theorem find?_update (registry : Registry) (uuid other : String) (change : Vm → Vm) :
    (registry.update uuid change).active.find? other =
      if uuid = other then
        (registry.active.find? other).map fun entry => { entry with vm := change entry.vm }
      else registry.active.find? other :=
  Keyed.find?_modify _ _ _ _

/-- A machine that may move is found, and its state allows the move. -/
theorem mayMove_eq (registry : Registry) (uuid : String) (next : VmState) :
    registry.mayMove uuid next =
      (registry.active.find? uuid).any fun entry => entry.vm.state.canMove next := by
  unfold mayMove find?
  cases registry.active.find? uuid with
  | none => rfl
  | some entry =>
    simp only [Option.map_some, Option.any_some]
    cases terminal : entry.vm.state.isTerminal with
    | false => rfl
    | true => rw [VmState.canMove_of_isTerminal terminal]; rfl

theorem find?_setState (registry : Registry) (uuid other : String) (next : VmState) :
    (registry.setState uuid next).active.find? other =
      if uuid = other then
        (registry.active.find? other).map fun entry => { entry with vm := entry.vm.moveTo next }
      else registry.active.find? other := by
  unfold setState
  rw [mayMove_eq]
  by_cases same : uuid = other
  · subst same
    cases found : registry.active.find? uuid with
    | none => simp [found]
    | some entry =>
      cases legal : entry.vm.state.canMove next with
      | false => simp [legal, found, Vm.moveTo]
      | true => simp [legal, found, Vm.moveTo, find?_update]
  · rw [if_neg same]
    split
    · rw [find?_update, if_neg same]
    · rfl

theorem find?_remove (registry : Registry) (uuid other : String) :
    (registry.remove uuid).active.find? other =
      if uuid = other then none else registry.active.find? other :=
  Keyed.find?_erase _ _ _

@[simp]
theorem active_cancel (registry : Registry) (token : HaltToken) :
    (registry.cancel token).active = registry.active := by
  unfold cancel
  split <;> rfl

theorem isCancelled_cancel (registry : Registry) (token other : HaltToken) :
    (registry.cancel token).isCancelled other = (registry.isCancelled other || token == other) := by
  unfold cancel
  split
  · rename_i already
    by_cases same : token = other
    · subst same
      simp [already]
    · simp [same]
  · by_cases same : other = token
    · simp [isCancelled, same]
    · simp [isCancelled, same, Ne.symm same]

@[simp]
theorem cancelled_setState (registry : Registry) (uuid : String) (next : VmState) :
    (registry.setState uuid next).cancelled = registry.cancelled := by
  unfold setState
  split <;> rfl

/-- A machine is put in under an identity that was free, and nothing else changes. -/
theorem reserve_eq_ok {registry next : Registry} {vm : Vm} {halt : HaltToken}
    (reserved : registry.reserve vm halt = .ok next) :
    registry.active.find? vm.uuid = none ∧
      next = { registry with active := registry.active.insert vm.uuid ⟨vm, halt⟩ } := by
  unfold reserve at reserved
  rw [contains, Keyed.contains_eq] at reserved
  split at reserved
  · cases reserved
  · rename_i absent
    exact ⟨by simpa using absent, (Except.ok.inj reserved).symm⟩

/-! ### Asking machines to end -/

/-- Asking one machine to end moves it where it may still move and touches no other entry. -/
theorem find?_haltOne (registry : Registry) (uuid other : String) :
    (registry.haltOne uuid).active.find? other =
      if uuid = other then
        (registry.active.find? other).map fun entry => { entry with vm := entry.vm.moveTo .halting }
      else registry.active.find? other := by
  unfold haltOne
  cases found : registry.active.find? uuid with
  | none =>
    by_cases same : uuid = other
    · subst same
      simp [found]
    · rw [if_neg same]
  | some entry =>
    simp only [active_cancel]
    by_cases same : uuid = other
    · subst same
      cases legal : entry.vm.state.canMove .halting with
      | false => simp [found, Vm.moveTo, legal]
      | true => simp [found, Vm.moveTo, legal, find?_update]
    · rw [if_neg same]
      split
      · rw [find?_update, if_neg same]
      · rfl

theorem isCancelled_haltOne (registry : Registry) (uuid : String) (token : HaltToken) :
    (registry.haltOne uuid).isCancelled token =
      (registry.isCancelled token ||
        (registry.active.find? uuid).any fun entry => entry.halt == token) := by
  unfold haltOne
  cases registry.active.find? uuid with
  | none => simp
  | some entry =>
    simp only [isCancelled_cancel, Option.any_some]
    split <;> rfl


theorem find?_halt (registry : Registry) (identities : List String) (other : String) :
    (registry.halt identities).1.active.find? other =
      if other ∈ identities then
        (registry.active.find? other).map fun entry => { entry with vm := entry.vm.moveTo .halting }
      else registry.active.find? other := by
  show (identities.foldl haltOne registry).active.find? other = _
  induction identities generalizing registry with
  | nil => simp
  | cons uuid identities inductionHypothesis =>
    rw [List.foldl_cons, inductionHypothesis, find?_haltOne]
    by_cases same : uuid = other
    · subst same
      -- asked once or asked again, the machine is moved the same way
      cases registry.active.find? uuid with
      | none => simp
      | some entry => simp [Vm.moveTo_halting_halting]
    · simp [same, Ne.symm same]

theorem isCancelled_halt (registry : Registry) (identities : List String) (token : HaltToken) :
    (registry.halt identities).1.isCancelled token =
      (registry.isCancelled token ||
        identities.any fun uuid => (registry.active.find? uuid).any fun entry =>
          entry.halt == token) := by
  show (identities.foldl haltOne registry).isCancelled token = _
  induction identities generalizing registry with
  | nil => simp
  | cons uuid identities inductionHypothesis =>
    have sameTokens : ∀ other, ((registry.haltOne uuid).active.find? other).any (·.halt == token) =
        (registry.active.find? other).any (·.halt == token) := by
      intro other
      rw [find?_haltOne]
      split
      · cases registry.active.find? other <;> rfl
      · rfl
    rw [List.foldl_cons, inductionHypothesis, isCancelled_haltOne]
    simp only [sameTokens, List.any_cons, Bool.or_assoc]

/-! ### Deeds -/

/-- What the registry says for as long as its entries stand. -/
def deeds (registry : Registry) : Keyed RegistryEntry :=
  registry.active.view RegistryEntry.deed

theorem find?_deeds (registry : Registry) (uuid : String) :
    registry.deeds.find? uuid = (registry.active.find? uuid).map RegistryEntry.deed :=
  Keyed.find?_view _ _ _

theorem unambiguous_deeds_iff (registry : Registry) :
    registry.deeds.Unambiguous ↔ registry.active.Unambiguous := by
  unfold Keyed.Unambiguous deeds
  rw [Keyed.keys_view]

theorem deeds_update (registry : Registry) (uuid : String) (change : Vm → Vm)
    (keeps : ∀ vm, (change vm).lasting = vm.lasting) :
    (registry.update uuid change).deeds = registry.deeds := by
  refine Keyed.view_modify _ _ _ _ fun entry => ?_
  show RegistryEntry.mk (change entry.vm).lasting entry.halt = ⟨entry.vm.lasting, entry.halt⟩
  rw [keeps]

@[simp]
theorem deeds_setState (registry : Registry) (uuid : String) (next : VmState) :
    (registry.setState uuid next).deeds = registry.deeds := by
  unfold setState
  split
  · exact deeds_update _ _ _ fun _ => rfl
  · rfl

@[simp]
theorem deeds_cancel (registry : Registry) (token : HaltToken) :
    (registry.cancel token).deeds = registry.deeds := by
  unfold deeds
  rw [active_cancel]

@[simp]
theorem deeds_haltOne (registry : Registry) (uuid : String) :
    (registry.haltOne uuid).deeds = registry.deeds := by
  unfold haltOne
  split
  · rfl
  · rw [deeds_cancel]
    split
    · exact deeds_update _ _ _ fun _ => rfl
    · rfl

@[simp]
theorem deeds_halt (registry : Registry) (identities : List String) :
    (registry.halt identities).1.deeds = registry.deeds := by
  show (identities.foldl haltOne registry).deeds = _
  induction identities generalizing registry with
  | nil => rfl
  | cons uuid identities inductionHypothesis =>
    rw [List.foldl_cons, inductionHypothesis, deeds_haltOne]

theorem deeds_remove (registry : Registry) (uuid : String) :
    (registry.remove uuid).deeds = registry.deeds.erase uuid :=
  Keyed.view_erase _ _ _

end Registry

end VmFleet
