/-
This file proves that every history leaves every request standing where the moments of
its runner say. The invariant speaks of all requests at once and remembers when somebody
first asked for the end of each machine. An event keeps it since it changes one outlook
only; a move of the clock, an arrival and a call to end find all requests at rest.
-/

import VmFleet.Proofs.Rehearsal.Rest

namespace VmFleet.Rehearsal

theorem Standing.isMarked {asked : Option Nat} {outlook : Outlook}
    (standing : Standing asked outlook) : outlook.IsMarked := by
  cases standing with
  | arrived bare | preparing vm bare | refused outcome time bare | unjudged bare =>
    exact bare.isMarked
  | quiet guest pending | heard guest pending | recorded guest vm pending | struck guest pending =>
    exact pending.manned.isMarked
  | abandoned guest vm manned | started guest vm manned | lapsed guest manned | unnoticed guest manned
  | decided guest time manned => exact manned.isMarked

/-- A race that has yet to write to the registry belongs to a request whose runner is alive. -/
theorem Standing.holds {asked : Option Nat} {outlook : Outlook} (standing : Standing asked outlook)
    (writes : outlook.boot.race.writes = true) : outlook.boot.holds = true := by
  have alive : outlook.boot.reaper = .watching → outlook.boot.holds = true := by
    intro watching
    simp [Boot.holds, watching, ReaperPhase.holds]
  have never : ∀ {phase : RacePhase}, outlook.boot.race = phase → phase.writes = false →
      outlook.boot.holds = true := by
    rintro phase rfl idle
    rw [idle] at writes
    cases writes
  cases standing with
  | arrived bare | preparing vm bare | refused outcome time bare | unjudged bare =>
    exact never bare.race rfl
  | abandoned guest vm manned phase absent | started guest vm manned phase absent =>
    exact never absent rfl
  | quiet guest pending opened =>
    rcases opened.race with waiting | waiting <;> exact never waiting rfl
  | heard guest pending phase report => exact alive report.watching
  | recorded guest vm pending phase report => exact alive report.watching
  | struck guest pending phase late => exact alive late.watching
  | lapsed guest manned phase signal late => exact alive late.watching
  | unnoticed guest manned waiting =>
    rcases waiting with waiting | waiting <;> exact never waiting rfl
  | decided guest time manned finished => exact never finished rfl

namespace Fleet

variable {fleet later : Fleet} {asked : Nat → Option Nat} {serial : Nat} {boot : Boot}
variable {event : Event}

/-! ### The invariant -/

/-- Nothing is known of a request that has not arrived. -/
structure IsFresh (fleet : Fleet) (serial : Nat) : Prop where
  guest : fleet.guest? serial = none
  answers : fleet.answersOf serial = []
  cancelled : fleet.daemon.shared.registry.isCancelled serial = false

theorem IsFresh.isMarked (fresh : fleet.IsFresh serial) (boot : Boot) :
    (fleet.outlook serial boot).IsMarked := by
  intro guest running
  have none : (fleet.outlook serial boot).guest = none := fresh.guest
  rw [none] at running
  cases running

/-- Every request stands where the moments of its runner say, if machines were asked to end at
the given times. -/
structure InOrder (asked : Nat → Option Nat) (fleet : Fleet) : Prop where
  owned : fleet.daemon.Owned
  standing : ∀ serial boot, fleet.daemon.boots[serial]? = some boot →
    Standing (asked serial) (fleet.outlook serial boot)
  fresh : ∀ serial, fleet.daemon.boots.length ≤ serial → fleet.IsFresh serial ∧ asked serial = none
  asking : ∀ serial time, asked serial = some time → time ≤ fleet.now

theorem inOrder_initial (setup : Setup) (tree : Tree) (scripts : List Script)
    (source : Nat → Uuid) :
    (Fleet.initial (Daemon.initial setup tree) scripts source).InOrder fun _ => none where
  owned := Daemon.owned_initial setup tree
  standing _ _ found := nomatch found
  fresh _ _ := ⟨⟨rfl, rfl, rfl⟩, rfl⟩
  asking _ _ same := nomatch same

/-- While nothing is due every request has come to rest. -/
theorem InOrder.resting (inOrder : fleet.InOrder asked) (rest : fleet.due? = none)
    (found : fleet.daemon.boots[serial]? = some boot) :
    Resting (asked serial) (fleet.outlook serial boot) :=
  Fleet.resting (inOrder.standing serial boot found) (due?_eq_none_iff.mp rest serial boot found)

theorem InOrder.happen (inOrder : fleet.InOrder asked)
    (due : fleet.due? = some (serial, boot, event)) :
    (fleet.happen serial boot event).InOrder asked := by
  obtain ⟨found, happening⟩ := next?_of_due? due
  have standing := inOrder.standing serial boot found
  obtain ⟨subject, -⟩ := furthers_of_next? found happening
  obtain ⟨next, after, stepped, moved, boots, -⟩ := happen_of_due? due
  have present : next.boots[serial]? = some after := by
    rw [boots, Daemon.boots_set found, if_pos rfl]
  have spared := inOrder.owned.spares_of_rule (Daemon.rule_of_step? stepped) subject found
    standing.holds
  refine ⟨owned_happen inOrder.owned due, fun other theirs found' => ?_, fun other outside => ?_,
    fun other time same => ?_⟩
  · rw [moved, boots, Daemon.boots_set found] at found'
    split at found'
    · rename_i same
      subst same
      obtain rfl := Option.some.inj found'
      obtain ⟨kept, place, standing⟩ :=
        keeps_of_standing found standing (inOrder.asking serial) happening
      rw [moved, present] at place
      obtain rfl := Option.some.inj place
      exact standing
    · rename_i different
      have theirStanding := inOrder.standing other theirs found'
      rw [outlook_happen_of_ne stepped present spared (Ne.symm different) theirs
        theirStanding.isMarked]
      exact theirStanding
  · rw [length_boots_happen due] at outside
    obtain ⟨fresh, nobody⟩ := inOrder.fresh other outside
    have inside := (List.getElem?_eq_some_iff.mp found).1
    have different : other ≠ serial := by omega
    have same : (fleet.happen serial boot event).outlook other boot = fleet.outlook other boot :=
      outlook_happen_of_ne stepped present spared different boot (fresh.isMarked boot)
    exact ⟨⟨(congrArg Outlook.guest same).trans fresh.guest,
      (congrArg Outlook.answers same).trans fresh.answers,
      (congrArg Outlook.cancelled same).trans fresh.cancelled⟩, nobody⟩
  · rw [now_happen]
    exact inOrder.asking other time same

theorem InOrder.wait (inOrder : fleet.InOrder asked) (rest : fleet.due? = none) {moment : Nat}
    (onward : fleet.now ≤ moment) (free : fleet.IsFreeUntil moment) :
    { fleet with now := moment }.InOrder asked where
  owned := inOrder.owned
  standing serial boot found :=
    standing_later (inOrder.resting rest found) onward (free serial boot found)
  fresh serial outside :=
    ⟨⟨(inOrder.fresh serial outside).1.guest, (inOrder.fresh serial outside).1.answers,
      (inOrder.fresh serial outside).1.cancelled⟩, (inOrder.fresh serial outside).2⟩
  asking serial time same := Nat.le_trans (inOrder.asking serial time same) onward

/-- A passage leaves every request where the moments of its runner say. -/
theorem InOrder.passes (inOrder : fleet.InOrder asked) (passed : Passes fleet later) :
    later.InOrder asked :=
  Passes.keeps (InOrder asked) InOrder.happen
    (fun inOrder rest onward free => inOrder.wait rest onward free) inOrder passed

/-! ### Onsets -/

/-- An action asks for the end of the machine of a request. -/
def asksFor (fleet : Fleet) (action : Action) (serial : Nat) : Bool :=
  (fleet.asked action).any fun uuid =>
    (fleet.daemon.shared.registry.active.find? uuid).any (·.halt == serial)

/-- When machines were asked to end, if an action follows. -/
def askedWith (asked : Nat → Option Nat) (fleet : Fleet) (action : Action) : Nat → Option Nat :=
  fun serial => (asked serial).or (if fleet.asksFor action serial then some fleet.now else none)

theorem askedWith_of_nobody {action : Action} (nobody : fleet.asked action = []) :
    askedWith asked fleet action = asked := by
  funext serial
  unfold askedWith asksFor
  rw [nobody]
  exact Option.or_none

theorem InOrder.submit (inOrder : fleet.InOrder asked) (draft : Vm) :
    { fleet with daemon := fleet.daemon.submit draft }.InOrder asked := by
  have owned : (fleet.daemon.submit draft).Owned :=
    inOrder.owned.step (Daemon.step?_of_rule (.submit draft))
  refine ⟨owned, fun serial boot found => ?_, fun serial outside => ?_, inOrder.asking⟩
  · have appended : (fleet.daemon.boots ++ [Boot.ofDraft draft])[serial]? = some boot := found
    rw [List.getElem?_append] at appended
    split at appended
    · exact inOrder.standing serial boot appended
    · rename_i outside
      obtain ⟨fresh, nobody⟩ := inOrder.fresh serial (Nat.le_of_not_lt outside)
      obtain rfl := List.mem_singleton.mp (List.mem_of_getElem? appended)
      refine .arrived ⟨fresh.guest, rfl, rfl, rfl, fresh.cancelled⟩ rfl ?_ fresh.answers nobody
      have unheld := owned.isSome_record found
      exact Option.isNone_iff_eq_none.mp (Option.isSome_eq_false_iff.mp unheld)
  · have longer : (fleet.daemon.boots ++ [Boot.ofDraft draft]).length ≤ serial := outside
    rw [List.length_append, List.length_singleton] at longer
    obtain ⟨fresh, nobody⟩ := inOrder.fresh serial (by omega)
    exact ⟨⟨fresh.guest, fresh.answers, fresh.cancelled⟩, nobody⟩

theorem InOrder.aside (inOrder : fleet.InOrder asked)
    (alike : Daemon.Alike later.daemon fleet.daemon) (now : later.now = fleet.now)
    (guests : later.guests = fleet.guests) (answeredAt : later.answeredAt = fleet.answeredAt) :
    later.InOrder asked := by
  have running : ∀ serial, later.guest? serial = fleet.guest? serial := fun serial =>
    congrArg (·.find? (·.serial == serial)) guests
  have told : ∀ serial, later.answersOf serial = fleet.answersOf serial := fun serial =>
    congrArg (fun answered => (answered.filter (·.1 == serial)).map (·.2)) answeredAt
  refine ⟨alike.owned inOrder.owned, fun serial boot found => ?_, fun serial outside => ?_,
    fun serial time same => now ▸ inOrder.asking serial time same⟩
  · have same : later.outlook serial boot = fleet.outlook serial boot := by
      unfold outlook Daemon.record
      rw [running, told, now, alike.setup, alike.registry]
    rw [alike.boots] at found
    rw [same]
    exact inOrder.standing serial boot found
  · rw [alike.boots] at outside
    obtain ⟨fresh, nobody⟩ := inOrder.fresh serial outside
    refine ⟨⟨(running serial).trans fresh.guest, (told serial).trans fresh.answers, ?_⟩, nobody⟩
    rw [alike.registry]
    exact fresh.cancelled

/-- The identities an action names are those of the halt that are registered. -/
theorem asksFor_eq {action : Action} {identities : List String}
    (named : fleet.asked action = (fleet.daemon.shared.registry.halt identities).2)
    (serial : Nat) :
    fleet.asksFor action serial = identities.any fun uuid =>
      (fleet.daemon.shared.registry.active.find? uuid).any (·.halt == serial) := by
  unfold asksFor
  rw [named]
  show (identities.filter fleet.daemon.shared.registry.contains).any _ = _
  rw [List.any_filter]
  refine congrArg identities.any (funext fun uuid => ?_)
  unfold Registry.contains
  rw [Keyed.contains_eq]
  cases fleet.daemon.shared.registry.active.find? uuid with
  | none => rfl
  | some entry => rfl

/-- Whoever is asked to end has a record under the identity of its own request. -/
theorem exists_record_of_asksFor (owned : fleet.daemon.Owned) {action : Action}
    {identities : List String}
    (named : fleet.asked action = (fleet.daemon.shared.registry.halt identities).2)
    (asks : fleet.asksFor action serial = true) :
    ∃ boot vm, fleet.daemon.boots[serial]? = some boot ∧ boot.vm.uuid ∈ identities ∧
      fleet.daemon.record serial boot = some vm := by
  rw [asksFor_eq named, List.any_eq_true] at asks
  obtain ⟨uuid, member, asks⟩ := asks
  obtain ⟨⟨vm, token⟩, present, same⟩ := (Option.any_eq_true _ _).mp asks
  obtain rfl : token = serial := by simpa using same
  obtain ⟨boot, found, -, rfl⟩ := owned.answerable (Keyed.mem_rows_of_find? present)
  exact ⟨boot, vm, found, member, Registry.entryOf_eq_some_iff.mpr present⟩

theorem asksFor_of_record {action : Action} {identities : List String} {vm : Vm}
    (named : fleet.asked action = (fleet.daemon.shared.registry.halt identities).2)
    (entered : fleet.daemon.record serial boot = some vm) (member : boot.vm.uuid ∈ identities) :
    fleet.asksFor action serial = true := by
  rw [asksFor_eq named, List.any_eq_true]
  refine ⟨boot.vm.uuid, member, ?_⟩
  rw [Registry.entryOf_eq_some_iff.mp entered]
  simp

/-- Whoever has not arrived is not asked to end. -/
theorem asksFor_of_fresh (owned : fleet.daemon.Owned) {action : Action} {identities : List String}
    (named : fleet.asked action = (fleet.daemon.shared.registry.halt identities).2)
    (outside : fleet.daemon.boots.length ≤ serial) : fleet.asksFor action serial = false := by
  refine Bool.eq_false_iff.mpr fun asks => ?_
  obtain ⟨boot, vm, found, -⟩ := exists_record_of_asksFor owned named asks
  have inside := (List.getElem?_eq_some_iff.mp found).1
  omega

namespace Halts

variable {action : Action} {identities : List String} {daemon : Daemon}

/-- The token of a request is cancelled if it was before or if its machine is asked to end. -/
theorem isCancelled (halts : fleet.Halts action identities daemon) (serial : Nat) :
    daemon.shared.registry.isCancelled serial =
      (fleet.daemon.shared.registry.isCancelled serial || fleet.asksFor action serial) := by
  rw [halts.registry, Registry.isCancelled_halt, asksFor_eq halts.named]

theorem record (halts : fleet.Halts action identities daemon) (serial : Nat) (boot : Boot) :
    daemon.record serial boot = if boot.vm.uuid ∈ identities then
      (fleet.daemon.record serial boot).map (·.moveTo .halting)
      else fleet.daemon.record serial boot := by
  unfold Daemon.record
  rw [halts.registry, Registry.entryOf_halt]

theorem guest? (fleet : Fleet) (daemon : Daemon) (serial : Nat) :
    (noteHalts { fleet with daemon }).guest? serial = (fleet.guest? serial).map
      (Guest.noteHalt fleet.now (daemon.shared.registry.isCancelled serial)) :=
  guest?_noteHalts { fleet with daemon } serial

theorem outlook (halts : fleet.Halts action identities daemon) (serial : Nat) (boot : Boot) :
    (noteHalts { fleet with daemon }).outlook serial boot =
      { fleet.outlook serial boot with
        guest := (fleet.outlook serial boot).guest.map
          (Guest.noteHalt fleet.now (daemon.shared.registry.isCancelled serial))
        record := daemon.record serial boot
        cancelled := daemon.shared.registry.isCancelled serial } := by
  unfold Fleet.outlook
  rw [guest?]
  show Outlook.mk daemon.setup.settings.bootTimeout _ _ _ (daemon.record serial boot)
    (daemon.shared.registry.isCancelled serial) _ = _
  rw [halts.setup]
  rfl

/-- The outlook of a request whose machine is asked to end. -/
theorem outlook_of_asksFor (halts : fleet.Halts action identities daemon) {vm : Vm}
    (asks : fleet.asksFor action serial = true) (member : boot.vm.uuid ∈ identities)
    (entered : fleet.daemon.record serial boot = some vm) :
    (noteHalts { fleet with daemon }).outlook serial boot =
      { fleet.outlook serial boot with
        guest := (fleet.outlook serial boot).guest.map (Guest.noteHalt fleet.now true)
        record := some (vm.moveTo .halting)
        cancelled := true } := by
  rw [halts.outlook, halts.isCancelled, halts.record, asks, Bool.or_true, if_pos member, entered]
  rfl

/-- The outlook of every other request stays as it is. -/
theorem outlook_of_spared (halts : fleet.Halts action identities daemon)
    (spared : fleet.asksFor action serial = false) (marked : (fleet.outlook serial boot).IsMarked) :
    (noteHalts { fleet with daemon }).outlook serial boot = fleet.outlook serial boot := by
  have unchanged : daemon.record serial boot = fleet.daemon.record serial boot := by
    rw [halts.record]
    split
    · rename_i member
      cases entered : fleet.daemon.record serial boot with
      | none => rfl
      | some vm =>
        rw [asksFor_of_record halts.named entered member] at spared
        cases spared
    · rfl
  rw [halts.outlook, halts.isCancelled, spared, Bool.or_false, unchanged]
  exact congrArg (fun guest => Outlook.mk _ _ _ guest _ _ _) marked.noteHalt

/-- A request is asked to end and has a record to say so, or its outlook stays as it is. -/
theorem outlook_cases (halts : fleet.Halts action identities daemon)
    (inOrder : fleet.InOrder asked) (found : fleet.daemon.boots[serial]? = some boot) :
    (fleet.asksFor action serial = true ∧ ∃ vm, fleet.daemon.record serial boot = some vm ∧
      (noteHalts { fleet with daemon }).outlook serial boot =
        { fleet.outlook serial boot with
          guest := (fleet.outlook serial boot).guest.map (Guest.noteHalt fleet.now true)
          record := some (vm.moveTo .halting)
          cancelled := true }) ∨
    (fleet.asksFor action serial = false ∧
      (noteHalts { fleet with daemon }).outlook serial boot = fleet.outlook serial boot) := by
  cases asks : fleet.asksFor action serial with
  | true =>
    obtain ⟨other, vm, place, member, entered⟩ :=
      exists_record_of_asksFor inOrder.owned halts.named asks
    obtain rfl := Option.some.inj (found.symm.trans place)
    exact .inl ⟨rfl, vm, entered, halts.outlook_of_asksFor asks member entered⟩
  | false =>
    have marked := (inOrder.standing serial boot found).isMarked
    exact .inr ⟨rfl, halts.outlook_of_spared asks marked⟩

end Halts

/-- Machines are asked to end while all requests are at rest. -/
theorem InOrder.halt (inOrder : fleet.InOrder asked) (rest : fleet.due? = none) {action : Action}
    {daemon : Daemon} {identities : List String} (halts : fleet.Halts action identities daemon)
    (owned : (noteHalts { fleet with daemon }).daemon.Owned) :
    (noteHalts { fleet with daemon }).InOrder (askedWith asked fleet action) := by
  refine ⟨owned, fun serial boot found => ?_, fun serial outside => ?_, fun serial time same => ?_⟩
  · have present : fleet.daemon.boots[serial]? = some boot := halts.boots ▸ found
    unfold askedWith
    rcases halts.outlook_cases inOrder present with ⟨asks, vm, entered, same⟩ | ⟨spared, same⟩
    · rw [asks, same, if_pos rfl]
      exact (inOrder.resting rest present).halt entered
    · rw [spared, same, if_neg Bool.false_ne_true, Option.or_none]
      exact inOrder.standing serial boot present
  · have outside : fleet.daemon.boots.length ≤ serial := halts.boots ▸ outside
    obtain ⟨fresh, nobody⟩ := inOrder.fresh serial outside
    have spared := asksFor_of_fresh inOrder.owned halts.named outside
    refine ⟨⟨?_, fresh.answers, ?_⟩, ?_⟩
    · rw [Halts.guest?, fresh.guest]
      rfl
    · refine (halts.isCancelled serial).trans ?_
      rw [fresh.cancelled, spared]
      rfl
    · unfold askedWith
      rw [nobody, spared]
      rfl
  · show time ≤ fleet.now
    rcases Option.or_eq_some_iff.mp same with before | ⟨-, now⟩
    · exact inOrder.asking serial time before
    · split at now
      · exact Nat.le_of_eq (Option.some.inj now).symm
      · cases now

/-- However an action begins, every request stands where the moments of its runner say. -/
theorem InOrder.onset (inOrder : fleet.InOrder asked) (rest : fleet.due? = none) {action : Action}
    (onset : Onset fleet action later) : later.InOrder (askedWith asked fleet action) := by
  have owned := onset.owned inOrder.owned
  cases onset with
  | arrival draft nobody =>
    rw [askedWith_of_nobody nobody]
    exact inOrder.submit draft
  | halt identities daemon halts => exact inOrder.halt rest halts owned
  | aside _ nobody alike now scripts guests answeredAt =>
    rw [askedWith_of_nobody nobody]
    exact inOrder.aside alike now guests answeredAt

/-! ### Histories -/

/-- When somebody first asked for the end of the machine of a request. -/
def askedAt (fleet : Fleet) (serial : Nat) : List Action → Option Nat
  | [] => none
  | action :: history =>
    if fleet.asksFor action serial then some fleet.now
    else askedAt (fleet.act action).1 serial history

/-- Whoever asks in the first action of a history asks before all that ask later. -/
theorem or_askedAt_cons (asked : Nat → Option Nat) (fleet : Fleet) (action : Action)
    (history : List Action) :
    (fun serial => (asked serial).or (fleet.askedAt serial (action :: history))) =
      fun serial => (askedWith asked fleet action serial).or
        ((fleet.act action).1.askedAt serial history) := by
  funext serial
  rw [askedAt, askedWith, Option.or_assoc]
  split
  · rfl
  · rw [Option.none_or]

/-- A history leaves every request at rest where the moments of its runner say. -/
theorem InOrder.play (inOrder : fleet.InOrder asked) (rest : fleet.due? = none)
    (history : List Action) :
    (fleet.play history).InOrder (fun serial =>
      (asked serial).or (fleet.askedAt serial history)) ∧ (fleet.play history).due? = none := by
  induction history generalizing fleet asked with
  | nil =>
    refine ⟨?_, rest⟩
    simp only [askedAt, Option.or_none]
    exact inOrder
  | cons action history inductionHypothesis =>
    obtain ⟨onset, begun, passed, still⟩ := unfolds_act inOrder.owned rest action
    have later := (inOrder.onset rest begun).passes passed
    obtain ⟨ended, quiet⟩ := inductionHypothesis later still
    refine ⟨?_, quiet⟩
    rw [or_askedAt_cons]
    exact ended

end Fleet

end VmFleet.Rehearsal
