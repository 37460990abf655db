/-
This file proves that at rest every record says what has become of its machine. The
state, the process, the address, the token and the answer of a request are written by
four parties; where a request stands fixes what all of them have written. That an
address shows that the boot is over needs that no runner reports an empty one.
-/

import VmFleet.Proofs.Rehearsal.Order

namespace VmFleet.Rehearsal

namespace Fleet

variable {fleet later : Fleet} {serial : Nat} {boot : Boot}

/-! ### Answers -/

theorem answer?_of_told (found : fleet.daemon.boots[serial]? = some boot)
    {outcome : Except FleetError Vm} (phase : boot.request = .answered outcome) {time : Nat}
    (told : fleet.answersOf serial = [time]) : fleet.answer? serial = some (outcome, time) := by
  have first : (fleet.answeredAt.find? (·.1 == serial)).map (·.2) = some time := by
    rw [← List.head?_filter, ← List.head?_map]
    exact congrArg List.head? told
  obtain ⟨⟨place, time⟩, noted, rfl⟩ := Option.map_eq_some_iff.mp first
  simp [answer?, Daemon.boot?, found, noted, phase]

theorem answer?_of_unanswered (found : fleet.daemon.boots[serial]? = some boot)
    (unanswered : boot.request.isAnswered = false) : fleet.answer? serial = none := by
  cases noted : fleet.answeredAt.find? (·.1 == serial) with
  | none => simp [answer?, Daemon.boot?, found, noted]
  | some answered =>
    cases phase : boot.request with
    | answered outcome =>
      rw [phase] at unanswered
      cases unanswered
    | _ => simp [answer?, Daemon.boot?, found, noted, phase]

/-! ### Addresses -/

/-- No runner reports an empty address, now or later. -/
structure Speaks (fleet : Fleet) : Prop where
  scripts : ∀ script ∈ fleet.scripts, script.address ≠ some ""
  guests : ∀ guest ∈ fleet.guests, guest.script.address ≠ some ""

theorem address_ne_empty {guest : Guest} (speaks : guest.script.address ≠ some "") :
    guest.address ≠ "" := by
  unfold Guest.address
  cases said : guest.script.address with
  | some address =>
    rw [said] at speaks
    exact fun empty => speaks (congrArg some empty)
  | none =>
    intro empty
    have characters := congrArg String.toList empty
    simp at characters

/-- A runner that is changed keeps to its script. -/
theorem Speaks.map (speaks : fleet.Speaks) (scripts : later.scripts = fleet.scripts)
    (change : Guest → Guest) (keeps : ∀ guest, (change guest).script = guest.script)
    (guests : later.guests = fleet.guests.map change) : later.Speaks := by
  refine ⟨scripts ▸ speaks.scripts, fun guest member => ?_⟩
  rw [guests] at member
  obtain ⟨before, place, rfl⟩ := List.mem_map.mp member
  rw [keeps]
  exact speaks.guests before place

theorem Speaks.noteLaunch (speaks : fleet.Speaks) (serial : Nat) (boot : Boot) :
    (fleet.noteLaunch serial boot).Speaks := by
  have script : (fleet.scripts.head?.getD Script.quiet).address ≠ some "" := by
    cases scripts : fleet.scripts with
    | nil => exact nofun
    | cons script others => exact speaks.scripts script (by rw [scripts]; exact .head _)
  have remaining : ∀ script ∈ fleet.scripts.tail, script.address ≠ some "" :=
    fun script member => speaks.scripts script (List.mem_of_mem_tail member)
  have joined : ∀ guest ∈ fleet.guests ++
      [⟨serial, fleet.scripts.head?.getD Script.quiet, fleet.nextPid, fleet.now, none, none⟩],
      guest.script.address ≠ some "" := by
    intro guest member
    rcases List.mem_append.mp member with before | new
    · exact speaks.guests guest before
    · obtain rfl := List.mem_singleton.mp new
      exact script
  unfold Fleet.noteLaunch
  dsimp only
  split <;> split
  · exact ⟨remaining, speaks.guests⟩
  · exact ⟨remaining, speaks.guests⟩
  · exact ⟨remaining, joined⟩
  · exact ⟨remaining, joined⟩

theorem Speaks.noteHalts (speaks : fleet.Speaks) : fleet.noteHalts.Speaks := by
  refine speaks.map rfl _ (fun guest => ?_) rfl
  split <;> rfl

theorem Speaks.happen (speaks : fleet.Speaks) (serial : Nat) (boot : Boot) (event : Event) :
    (fleet.happen serial boot event).Speaks := by
  have noted : (fleet.noted serial boot event).Speaks := by
    cases event with
    | reserve => exact ⟨speaks.scripts, speaks.guests⟩
    | launch => exact speaks.noteLaunch serial boot
    | exit =>
      refine speaks.map rfl _ (fun guest => ?_) rfl
      split <;> rfl
    | _ => exact speaks
  have moved : ({ fleet.noted serial boot event with
      daemon := (fleet.daemon.step? event).getD fleet.daemon } : Fleet).Speaks :=
    ⟨noted.scripts, noted.guests⟩
  rw [happen_eq]
  unfold noteAnswer
  dsimp only
  split
  · exact moved.noteHalts
  · exact ⟨moved.noteHalts.scripts, moved.noteHalts.guests⟩

theorem Speaks.onset (speaks : fleet.Speaks) {action : Action}
    (onset : Onset fleet action later) : later.Speaks := by
  cases onset with
  | arrival draft nobody => exact ⟨speaks.scripts, speaks.guests⟩
  | halt identities daemon halts =>
    have moved : ({ fleet with daemon } : Fleet).Speaks := ⟨speaks.scripts, speaks.guests⟩
    exact moved.noteHalts
  | aside _ nobody alike now scripts guests answeredAt =>
    exact ⟨scripts ▸ speaks.scripts, guests ▸ speaks.guests⟩

/-! ### Histories from the start -/

section Start

variable (setup : Setup) (tree : Tree) (scripts : List Script) (source : Nat → Uuid)
variable (history : List Action)

/-- Every request stands at rest where the moments of its runner say. -/
theorem inOrder_play :
    ((Fleet.initial (Daemon.initial setup tree) scripts source).play history).InOrder
      (fun serial => (Fleet.initial (Daemon.initial setup tree) scripts source).askedAt serial
        history) ∧
      ((Fleet.initial (Daemon.initial setup tree) scripts source).play history).due? = none := by
  have played := (inOrder_initial setup tree scripts source).play rfl history
  simpa only [Option.none_or] using played

theorem speaks_play (spoken : ∀ script ∈ scripts, script.address ≠ some "") :
    ((Fleet.initial (Daemon.initial setup tree) scripts source).play history).Speaks := by
  refine play_keeps Speaks (fun speaks onset => speaks.onset onset)
    (fun speaks _ => speaks.happen _ _ _) (fun speaks _ _ _ => ⟨speaks.scripts, speaks.guests⟩)
    ⟨spoken, fun _ member => ?_⟩ (Daemon.owned_initial setup tree) rfl history
  cases member

end Start

/-! ### The result -/

theorem pid_ne_noPid (pid : Nat) : (pid : Int) ≠ Vm.noPid := by
  unfold Vm.noPid
  omega

/-- An entry is the record of the request that its token names. -/
theorem InOrder.entry {asked : Nat → Option Nat} (inOrder : fleet.InOrder asked) {uuid : String}
    {entry : RegistryEntry} (member : (uuid, entry) ∈ fleet.daemon.shared.registry.active.rows) :
    ∃ boot, fleet.daemon.boots[entry.halt]? = some boot ∧ boot.vm.uuid = uuid ∧
      (fleet.outlook entry.halt boot).record = some entry.vm := by
  obtain ⟨boot, found, -, rfl⟩ := inOrder.owned.answerable member
  have unambiguous := (Registry.unambiguous_deeds_iff _).mp inOrder.owned.unambiguous
  exact ⟨boot, found, rfl, Registry.entryOf_eq_some_iff.mpr (unambiguous.find?_of_mem member)⟩

variable {entry : RegistryEntry} {guest : Guest}

/-- A daemon with one image. The first runner reports an address after a second, and the second
one never does. -/
def twoRunners : Fleet :=
  let name (text : String) : FileName := Text.octetsOf text
  Fleet.initial
    (Daemon.initial
      { settings := ⟨⟨[0x2F, 0x72]⟩, 5, 3, 1024, 8192, 8192⟩
        store := ⟨⟨[0x2F]⟩, [], ["k"], default⟩
        runner := ⟨[]⟩
        macs := MacSource.ofOctets }
      ⟨[([name "alpha"], .directory default),
        ([name "1.2.3", name "alpha"], .directory default),
        ([name "k", name "1.2.3", name "alpha"], .file [])], default, []⟩)
    [⟨none, false, none, some 1000, none, some 9000, some 500⟩,
      ⟨none, false, none, none, none, none, some 2000⟩]
    fun number => ⟨List.replicate 16 (UInt8.ofNat (number + 1)), List.length_replicate⟩

end Fleet

end VmFleet.Rehearsal
