/-
This file says where a request stands once nothing is due to it. It was answered before
there was a runner, or its boot waits for the address, the deadline and the end of the
runner, or its outcome is settled and the runner lives on or is gone, or it broke off
without an answer. From there a request stays in order when the clock moves and when its machine
is asked to end.
-/

import VmFleet.Proofs.Rehearsal.Outcome

namespace VmFleet

/-- The race has something to do at once. -/
def RacePhase.isBusy : RacePhase → Bool
  | .heard _ | .recorded _ | .struck | .lapsed => true
  | _ => false

/-- The reaper has something to do at once. -/
def ReaperPhase.isBusy : ReaperPhase → Bool
  | .exited | .deregistered | .settled => true
  | _ => false

namespace Rehearsal

variable {asked : Option Nat}

/-- Where a request stands to which nothing is due. -/
inductive Resting (asked : Option Nat) (outlook : Outlook) : Prop
  /-- The request was answered before there was a runner. -/
  | refused (outcome : Except FleetError Vm) (time : Nat) (bare : outlook.IsBare)
    (phase : outlook.boot.request = .answered outcome) (gone : outlook.record = none)
    (told : outlook.answers = [time]) (nobody : asked = none)
  /-- The request broke off and has nothing. -/
  | unjudged (bare : outlook.IsBare) (phase : outlook.boot.request = .unjudged)
    (gone : outlook.record = none) (silent : outlook.answers = []) (nobody : asked = none)
  /-- The request broke off, and its runner is left to itself. -/
  | abandoned (guest : Guest) (vm : Vm) (manned : outlook.IsManned guest)
    (phase : outlook.boot.request = .abandoned) (race : outlook.boot.race = .absent)
    (reaper : outlook.boot.reaper = .absent) (signal : outlook.boot.signal = .pending)
    (untold : clockEnd ≤ outlook.deadline guest) (halted : guest.haltedAt = asked)
    (alive : guest.endedAt = none) (entered : outlook.record = some vm)
    (shows : guest.Shows vm .pending) (silent : outlook.answers = [])
  /-- The address, the deadline and the end of the runner are all to come. -/
  | booting (guest : Guest) (vm : Vm) (pending : outlook.IsPending guest asked)
    (race : outlook.boot.race.IsWaiting) (watching : outlook.boot.reaper = .watching)
    (entered : outlook.record = some vm) (shows : guest.Shows vm .pending)
    (alive : guest.endedAt = none)
    (report : ∀ report, guest.reportsAt = some report →
      outlook.boot.race = .listening ∧ outlook.now < report)
    (deadline : outlook.now < outlook.deadline guest)
    (ahead : ∀ ending, guest.endsAt = some ending → outlook.now < ending)
  /-- The outcome is settled and the runner lives on. -/
  | living (guest : Guest) (time : Nat) (vm : Vm) (manned : outlook.IsManned guest)
    (race : outlook.boot.race = .finished)
    (settles : guest.Settles (outlook.deadline guest) outlook.boot.signal time)
    (phase : outlook.boot.request = .answered
      (Boot.answerOf outlook.boot.vm.name outlook.bootTimeout outlook.boot.signal))
    (told : outlook.answers = [time])
    (halted : guest.haltedAt = Guest.haltCause asked (outlook.deadline guest) outlook.boot.signal)
    (past : time ≤ outlook.now) (watching : outlook.boot.reaper = .watching)
    (entered : outlook.record = some vm) (shows : guest.Shows vm outlook.boot.signal)
    (alive : guest.endedAt = none)
    (ahead : ∀ ending, guest.endsAt = some ending → outlook.now < ending)
  /-- The outcome is settled and the runner is gone. -/
  | left (guest : Guest) (time ending : Nat) (manned : outlook.IsManned guest)
    (race : outlook.boot.race = .finished)
    (settles : guest.Settles (outlook.deadline guest) outlook.boot.signal time)
    (phase : outlook.boot.request = .answered
      (Boot.answerOf outlook.boot.vm.name outlook.bootTimeout outlook.boot.signal))
    (told : outlook.answers = [time])
    (halted : guest.haltedAt = Guest.haltCause asked (outlook.deadline guest) outlook.boot.signal)
    (past : time ≤ outlook.now)
    (reaper : outlook.boot.reaper = .grace ∨ outlook.boot.reaper = .finished)
    (gone : outlook.record = none) (ended : guest.endedAt = some ending)
    (ends : guest.endsAt = some ending) (elapsed : ending ≤ outlook.now)

namespace Fleet

variable {fleet : Fleet} {serial : Nat} {boot : Boot} {guest : Guest}

theorem mem_momentsOf_ending (running : fleet.guest? serial = some guest)
    (watching : boot.reaper = .watching) : guest.endsAt ∈ fleet.momentsOf serial boot :=
  mem_momentsOf_iff.mpr ⟨guest, running, .ending watching⟩

theorem mem_momentsOf_deadline (running : fleet.guest? serial = some guest)
    (race : boot.race.IsWaiting) :
    some (fleet.deadline guest) ∈ fleet.momentsOf serial boot :=
  mem_momentsOf_iff.mpr ⟨guest, running, .deadline race⟩

theorem mem_momentsOf_report (running : fleet.guest? serial = some guest)
    (race : boot.race = .listening) : guest.reportsAt ∈ fleet.momentsOf serial boot :=
  mem_momentsOf_iff.mpr ⟨guest, running, .report race⟩

theorem raceEvent?_ne_none (running : fleet.guest? serial = some guest)
    (busy : boot.race.isBusy = true) : fleet.raceEvent? serial boot ≠ none := by
  intro idle
  cases race : boot.race <;> rw [race] at busy <;> cases busy
  all_goals simp [raceEvent?, running, race] at idle

theorem reaperEvent?_ne_none (running : fleet.guest? serial = some guest)
    (busy : boot.reaper.isBusy = true) : fleet.reaperEvent? serial boot ≠ none := by
  intro idle
  cases reaper : boot.reaper <;> rw [reaper] at busy <;> cases busy
  all_goals simp [reaperEvent?, running, reaper] at idle

/-- A request to which nothing is due has come to rest. -/
theorem resting (standing : Standing asked (fleet.outlook serial boot))
    (idle : fleet.next? serial boot = none) : Resting asked (fleet.outlook serial boot) := by
  have soon : ∀ moment, moment ∈ fleet.momentsOf serial boot → ∀ time, moment = some time →
      fleet.now < time := fun moment waits time same =>
    lt_of_mem_momentsOf idle (same ▸ waits)
  obtain ⟨request, race, reaper⟩ := next?_eq_none_iff.mp idle
  cases standing with
  | arrived bare phase gone silent nobody =>
    have arrived : boot.request = .arrived := phase
    simp [requestEvent?, arrived] at request
  | preparing vm bare phase =>
    have prepares : boot.request.isPreparing = true := phase
    cases going : boot.request <;> rw [going] at prepares <;> cases prepares
    all_goals simp [requestEvent?, going] at request
  | refused outcome time bare phase gone told nobody =>
    exact .refused outcome time bare phase gone told nobody
  | unjudged bare phase gone silent nobody => exact .unjudged bare phase gone silent nobody
  | abandoned guest vm manned phase race reaper signal untold halted alive entered shows silent =>
    exact .abandoned guest vm manned phase race reaper signal untold halted alive entered shows
      silent
  | started guest vm manned phase absent none' signal begun free alive entered address state silent
      nobody =>
    have started : boot.request = .started := phase
    simp [requestEvent?, started] at request
  | quiet guest pending opened attended stays first =>
    have running : fleet.guest? serial = some guest := pending.manned.running
    have watching : boot.reaper = .watching := by
      rcases stays with phase | phase | phase
      · exact phase
      · exact absurd reaper (reaperEvent?_ne_none running (congrArg ReaperPhase.isBusy phase))
      · exact absurd reaper (reaperEvent?_ne_none running (congrArg ReaperPhase.isBusy phase))
    obtain ⟨vm, entered, shows, alive, -⟩ := attended.change watching
    refine .booting guest vm pending opened.race watching entered shows alive
      (fun report reports => ?_) ?_ ?_
    · have listening := (opened.report report reports).1
      exact ⟨listening, soon _ (mem_momentsOf_report running listening) report reports⟩
    · exact soon _ (mem_momentsOf_deadline running opened.race) _ rfl
    · exact soon _ (mem_momentsOf_ending running watching)
  | heard guest pending phase | recorded guest vm pending phase | struck guest pending phase =>
    exact absurd race
      (raceEvent?_ne_none pending.manned.running (congrArg RacePhase.isBusy phase))
  | lapsed guest manned phase =>
    exact absurd race (raceEvent?_ne_none manned.running (congrArg RacePhase.isBusy phase))
  | unnoticed guest manned waiting settled signal settles attended replied halted =>
    have running : fleet.guest? serial = some guest := manned.running
    have early : boot.signal = .terminatedEarly := signal
    rcases waiting with phase | phase
    · have listening : boot.race = .listening := phase
      simp [raceEvent?, running, listening, early, BootSignal.isPending] at race
    · have deaf : boot.race = .deaf := phase
      simp [raceEvent?, running, deaf, early, BootSignal.isPending] at race
  | decided guest time manned finished settles attended replied halted past =>
    have running : fleet.guest? serial = some guest := manned.running
    have decided : boot.signal.isPending = false := by
      cases signal : (fleet.outlook serial boot).boot.signal with
      | pending =>
        rw [signal] at settles
        exact settles.elim
      | _ => exact congrArg BootSignal.isPending signal
    cases replied with
    | soon phase silent now =>
      have waits : boot.request = .waiting := phase
      simp [requestEvent?, waits, decided] at request
    | done phase told =>
      cases attended with
      | watching vm watching entered shows alive ahead =>
        exact .living guest time vm manned finished settles phase told halted past watching
          entered shows alive (soon _ (mem_momentsOf_ending running watching))
      | exited vm exited entered shows ended ends =>
        exact absurd reaper (reaperEvent?_ne_none running (congrArg ReaperPhase.isBusy exited))
      | leaving leaving gone ended ends =>
        rcases leaving with phase | phase
        · exact absurd reaper (reaperEvent?_ne_none running (congrArg ReaperPhase.isBusy phase))
        · exact absurd reaper (reaperEvent?_ne_none running (congrArg ReaperPhase.isBusy phase))
      | left ending left gone ended ends elapsed =>
        exact .left guest time ending manned finished settles phase told halted past left gone
          ended ends elapsed

/-! ### What a request at rest outlasts -/

/-- The clock moves to a moment before which nobody waits. -/
theorem standing_later (resting : Resting asked (fleet.outlook serial boot)) {moment : Nat}
    (onward : fleet.now ≤ moment)
    (free : ∀ other, some other ∈ fleet.momentsOf serial boot → moment ≤ other) :
    Standing asked ({ fleet with now := moment }.outlook serial boot) := by
  cases resting with
  | refused outcome time bare phase gone told nobody =>
    exact .refused outcome time ⟨bare.guest, bare.race, bare.reaper, bare.signal, bare.cancelled⟩
      phase gone told nobody
  | unjudged bare phase gone silent nobody =>
    exact .unjudged ⟨bare.guest, bare.race, bare.reaper, bare.signal, bare.cancelled⟩ phase gone
      silent nobody
  | abandoned guest vm manned phase race reaper signal untold halted alive entered shows silent =>
    exact .abandoned guest vm ⟨manned.running, manned.pid, manned.cancelled⟩ phase race reaper
      signal untold halted alive entered shows silent
  | booting guest vm pending race watching entered shows alive report deadline ahead =>
    have running : fleet.guest? serial = some guest := pending.manned.running
    refine .quiet guest ⟨⟨running, pending.manned.pid, pending.manned.cancelled⟩, pending.request,
      pending.signal, pending.halted, pending.silent⟩ ⟨race, fun time reports => ?_, ?_⟩
      (.watching vm watching entered shows alive fun ending ends => ?_) (.inl watching)
      (absurd watching)
    · have listening := (report time reports).1
      exact ⟨listening, free time (reports ▸ mem_momentsOf_report running listening)⟩
    · exact free _ (mem_momentsOf_deadline running race)
    · exact free ending (ends ▸ mem_momentsOf_ending running watching)
  | living guest time vm manned race settles phase told halted past watching entered shows alive
      ahead =>
    have running : fleet.guest? serial = some guest := manned.running
    refine .decided guest time ⟨running, manned.pid, manned.cancelled⟩ race settles
      (.watching vm watching entered shows alive fun ending ends => ?_) (.done phase told) halted
      (Nat.le_trans past onward)
    exact free ending (ends ▸ mem_momentsOf_ending running watching)
  | left guest time ending manned race settles phase told halted past reaper gone ended ends
      elapsed =>
    exact .decided guest time ⟨manned.running, manned.pid, manned.cancelled⟩ race settles
      (.left ending reaper gone ended ends (Nat.le_trans elapsed onward)) (.done phase told) halted
      (Nat.le_trans past onward)

end Fleet

/-- Who asks for a halt after the deadline is not the first to do so. -/
theorem earliest_or {asked : Option Nat} {deadline now : Nat} (late : deadline ≤ now) :
    earliest [asked.or (some now), some deadline] = earliest [asked, some deadline] := by
  cases asked with
  | some time => rfl
  | none =>
    have last : earliest [some now, some deadline] = some deadline := by
      refine earliest_eq_some_iff.mpr ⟨.tail _ (.head _), fun other member => ?_⟩
      simp only [List.mem_cons, List.not_mem_nil, or_false, Option.some.injEq] at member
      rcases member with rfl | rfl
      · exact late
      · exact Nat.le_refl _
    exact last

/-- A runner that is asked to end was asked to when its outcome says. -/
theorem Guest.haltCause_halt {guest : Guest} {vm : Vm} {signal : BootSignal}
    {deadline time now : Nat} (settles : guest.Settles deadline signal time)
    (shows : guest.Shows vm signal) (past : time ≤ now)
    (halted : guest.haltedAt = haltCause asked deadline signal) :
    some (guest.haltedAt.getD now) = haltCause (asked.or (some now)) deadline signal := by
  cases signal with
  | pending => exact settles.elim
  | ready ready =>
    rw [show guest.haltedAt = asked from halted]
    cases asked <;> rfl
  | timedOut =>
    obtain ⟨rfl, -, -⟩ := settles
    obtain ⟨-, -, marked, -⟩ := shows
    obtain ⟨first, stopped⟩ := Option.isSome_iff_exists.mp marked
    refine Eq.trans ?_ (halted.trans (earliest_or past).symm)
    rw [stopped, Option.getD_some]
  | terminatedEarly => exact shows.elim

/-- The machine of a request at rest is asked to end. -/
theorem Resting.halt {outlook : Outlook} {vm : Vm} (resting : Resting asked outlook)
    (entered : outlook.record = some vm) :
    Standing (asked.or (some outlook.now))
      { outlook with
        guest := outlook.guest.map (Guest.noteHalt outlook.now true)
        record := some (vm.moveTo .halting)
        cancelled := true } := by
  have marked : ∀ {guest : Guest}, outlook.guest = some guest →
      outlook.guest.map (Guest.noteHalt outlook.now true) = some (guest.halt outlook.now) := by
    intro guest running
    rw [running, Option.map_some, Guest.noteHalt_true]
  cases resting with
  | refused outcome time bare phase gone | unjudged bare phase gone =>
    rw [gone] at entered
    cases entered
  | left guest time ending manned race settles phase told halted past reaper gone ended ends
      elapsed =>
    rw [gone] at entered
    cases entered
  | abandoned guest other manned phase race reaper signal untold halted alive present shows
      silent =>
    obtain rfl := Option.some.inj (entered.symm.trans present)
    refine .abandoned (guest.halt outlook.now) _ ⟨marked manned.running, manned.pid, rfl⟩ phase
      race reaper signal untold ?_ alive rfl (shows.halt _) silent
    show some (guest.haltedAt.getD outlook.now) = asked.or (some outlook.now)
    rw [halted]
    cases asked <;> rfl
  | booting guest other pending race watching present shows alive report deadline ahead =>
    obtain rfl := Option.some.inj (entered.symm.trans present)
    have later : ∀ ending, guest.endsAt = some ending → outlook.now ≤ ending :=
      fun ending ends => Nat.le_of_lt (ahead ending ends)
    refine .quiet (guest.halt outlook.now) ⟨⟨marked pending.manned.running, pending.manned.pid,
      rfl⟩, pending.request, pending.signal, ?_, pending.silent⟩
      ⟨race, fun time reports => ?_, Nat.le_of_lt deadline⟩
      (.watching _ watching rfl (shows.halt _) alive fun _ => Guest.endsAt_halt later)
      (.inl watching) (absurd watching)
    · show some (guest.haltedAt.getD outlook.now) = asked.or (some outlook.now)
      rw [pending.halted]
      cases asked <;> rfl
    · obtain ⟨listening, soon⟩ := report time reports
      exact ⟨listening, Nat.le_of_lt soon⟩
  | living guest time other manned race settles phase told halted past watching present shows alive
      ahead =>
    obtain rfl := Option.some.inj (entered.symm.trans present)
    have later : ∀ ending, guest.endsAt = some ending → outlook.now ≤ ending :=
      fun ending ends => Nat.le_of_lt (ahead ending ends)
    exact .decided (guest.halt outlook.now) time ⟨marked manned.running, manned.pid, rfl⟩ race
      (settles.halt shows past later)
      (.watching _ watching rfl (shows.halt _) alive fun _ => Guest.endsAt_halt later)
      (.done phase told) (Guest.haltCause_halt settles shows past halted) past

end Rehearsal

end VmFleet
