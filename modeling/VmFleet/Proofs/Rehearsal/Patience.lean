/-
This file proves that a client which keeps to a valid configuration waits for every
boot whose numbers can be told. A runner starts at the instant of its request and keeps
its start, whatever is asked of the daemon in the meantime; so the deadline of the boot,
which settles the outcome if nothing did before, is no later than the time that a boot
may take after the request. A client waits longer than that, so its call ends with the
reply of the daemon. But no rule for configurations bounds the time for a boot itself. A
request whose deadline lies beyond all times breaks off, and nobody is ever told.
-/

import VmFleet.Proofs.Client.Talk
import VmFleet.Proofs.Config.Validation
import VmFleet.Proofs.Rehearsal.Teardown
import VmFleet.Rehearsal.Link

namespace VmFleet

namespace Rehearsal

/-- The outcome of a boot is settled by its deadline. -/
theorem Guest.Settles.le_deadline {guest : Guest} {deadline time : Nat} {signal : BootSignal}
    (settles : guest.Settles deadline signal time) : time ≤ deadline := by
  cases signal with
  | pending => exact settles.elim
  | ready vm => exact settles.2.2.1
  | timedOut => exact Nat.le_of_eq settles.1
  | terminatedEarly => exact Nat.le_of_lt settles.2.1

namespace Fleet

variable {fleet later : Fleet} {asked : Nat → Option Nat} {serial place : Nat} {boot going : Boot}
variable {guest : Guest} {event : Event}

/-! ### A runner keeps its start -/

/-- A request has a runner that went on from a certain one. -/
def GoesOn (guest : Guest) (serial : Nat) (fleet : Fleet) : Prop :=
  ∃ after, fleet.guest? serial = some after ∧ guest.GoesOn after

theorem GoesOn.change (goesOn : fleet.GoesOn guest serial) (change : Guest → Guest)
    (goes : ∀ guest : Guest, guest.GoesOn (change guest))
    (changed : later.guest? serial = (fleet.guest? serial).map change) :
    later.GoesOn guest serial := by
  obtain ⟨after, running, onward⟩ := goesOn
  exact ⟨change after, by rw [changed, running]; rfl, onward.trans (goes after)⟩

theorem GoesOn.noted (goesOn : fleet.GoesOn guest serial) (place : Nat) (boot : Boot)
    (event : Event) : (fleet.noted place boot event).GoesOn guest serial := by
  cases event with
  | launch _ outcome =>
    obtain ⟨after, running, onward⟩ := goesOn
    refine ⟨after, ?_, onward⟩
    cases willing : (fleet.scripts.head?.getD Script.quiet).refusal with
    | none =>
      refine (guest?_noteLaunch fleet place serial boot willing).trans ?_
      rw [running, Option.some_or]
    | some error =>
      exact (guest?_noteLaunch_of_refusal fleet place serial boot willing).trans running
  | exit _ =>
    refine goesOn.change _ (fun guest => ?_) (guest?_noteExit fleet place serial)
    split
    · exact ⟨rfl, rfl, rfl, fun _ => id⟩
    · exact guest.goesOn_self
  | _ => exact goesOn

theorem GoesOn.happen (goesOn : fleet.GoesOn guest serial)
    (due : fleet.due? = some (place, going, event)) :
    (fleet.happen place going event).GoesOn guest serial := by
  obtain ⟨next, -, stepped, -⟩ := happen_of_due? due
  exact (goesOn.noted place going event).change _ (fun guest => guest.goesOn_noteHalt _ _)
    (guest?_happen stepped serial)

theorem GoesOn.onset (goesOn : fleet.GoesOn guest serial) {action : Action}
    (onset : Onset fleet action later) : later.GoesOn guest serial := by
  cases onset with
  | arrival draft nobody => exact goesOn
  | halt identities daemon halts =>
    exact goesOn.change _ (fun guest => guest.goesOn_noteHalt _ _)
      (Halts.guest? fleet daemon serial)
  | aside _ nobody alike now scripts guests answeredAt =>
    unfold GoesOn guest?
    rw [guests]
    exact goesOn

/-- A runner goes on, whatever is asked. -/
theorem GoesOn.play (goesOn : fleet.GoesOn guest serial) (owned : fleet.daemon.Owned)
    (rest : fleet.due? = none) (history : List Action) :
    (fleet.play history).GoesOn guest serial :=
  play_keeps (GoesOn guest serial) (fun goesOn onset => goesOn.onset onset)
    (fun goesOn due => goesOn.happen due) (fun goesOn _ _ _ => goesOn) goesOn owned rest history

/-! ### Nothing is dated ahead -/

/-- No runner was started and no answer was given later than now. -/
structure IsDated (fleet : Fleet) : Prop where
  guests : ∀ guest ∈ fleet.guests, guest.startedAt ≤ fleet.now
  answers : ∀ answered ∈ fleet.answeredAt, answered.2 ≤ fleet.now

theorem IsDated.map (dated : fleet.IsDated) (change : Guest → Guest)
    (goes : ∀ guest : Guest, guest.GoesOn (change guest)) (now : later.now = fleet.now)
    (guests : later.guests = fleet.guests.map change)
    (answeredAt : later.answeredAt = fleet.answeredAt) : later.IsDated := by
  refine ⟨fun after member => ?_, fun answered member => ?_⟩
  · rw [guests] at member
    obtain ⟨guest, present, rfl⟩ := List.mem_map.mp member
    rw [(goes guest).startedAt, now]
    exact dated.guests guest present
  · rw [answeredAt] at member
    rw [now]
    exact dated.answers answered member

theorem IsDated.noteHalts (dated : fleet.IsDated) : fleet.noteHalts.IsDated :=
  dated.map _ (fun guest => guest.goesOn_noteHalt _ _) rfl (guests_noteHalts fleet) rfl

theorem IsDated.noteLaunch (dated : fleet.IsDated) (serial : Nat) (boot : Boot) :
    (fleet.noteLaunch serial boot).IsDated := by
  have joined : ∀ guest ∈ fleet.guests ++
      [⟨serial, fleet.scripts.head?.getD Script.quiet, fleet.nextPid, fleet.now, none, none⟩],
      guest.startedAt ≤ fleet.now := by
    intro guest member
    rcases List.mem_append.mp member with before | new
    · exact dated.guests guest before
    · obtain rfl := List.mem_singleton.mp new
      exact Nat.le_refl _
  unfold Fleet.noteLaunch
  dsimp only
  split <;> split
  · exact ⟨dated.guests, dated.answers⟩
  · exact ⟨dated.guests, dated.answers⟩
  · exact ⟨joined, dated.answers⟩
  · exact ⟨joined, dated.answers⟩

theorem IsDated.noteAnswer (dated : fleet.IsDated) (serial : Nat) :
    (fleet.noteAnswer serial).IsDated := by
  unfold Fleet.noteAnswer
  dsimp only
  split
  · exact dated
  · refine ⟨dated.guests, fun answered member => ?_⟩
    rcases List.mem_append.mp member with before | new
    · exact dated.answers answered before
    · obtain rfl := List.mem_singleton.mp new
      exact Nat.le_refl _

theorem IsDated.happen (dated : fleet.IsDated) (serial : Nat) (boot : Boot) (event : Event) :
    (fleet.happen serial boot event).IsDated := by
  have noted : (fleet.noted serial boot event).IsDated := by
    cases event with
    | launch => exact dated.noteLaunch serial boot
    | exit =>
      refine dated.map _ (fun guest => ?_) rfl rfl rfl
      split
      · exact ⟨rfl, rfl, rfl, fun _ => id⟩
      · exact guest.goesOn_self
    | reserve => exact ⟨dated.guests, dated.answers⟩
    | _ => exact dated
  have moved : ({ fleet.noted serial boot event with
      daemon := (fleet.daemon.step? event).getD fleet.daemon } : Fleet).IsDated :=
    ⟨noted.guests, noted.answers⟩
  rw [happen_eq]
  exact moved.noteHalts.noteAnswer serial

theorem IsDated.onset (dated : fleet.IsDated) {action : Action}
    (onset : Onset fleet action later) : later.IsDated := by
  cases onset with
  | arrival draft nobody => exact ⟨dated.guests, dated.answers⟩
  | halt identities daemon halts =>
    have moved : ({ fleet with daemon } : Fleet).IsDated := ⟨dated.guests, dated.answers⟩
    exact moved.noteHalts
  | aside _ nobody alike now scripts guests answeredAt =>
    exact ⟨guests ▸ now ▸ dated.guests, answeredAt ▸ now ▸ dated.answers⟩

theorem isDated_play (setup : Setup) (tree : Tree) (scripts : List Script) (source : Nat → Uuid)
    (history : List Action) :
    ((Fleet.initial (Daemon.initial setup tree) scripts source).play history).IsDated :=
  play_keeps IsDated (fun dated onset => dated.onset onset) (fun dated _ => dated.happen _ _ _)
    (fun dated _ onward _ =>
      ⟨fun guest member => Nat.le_trans (dated.guests guest member) onward,
        fun answered member => Nat.le_trans (dated.answers answered member) onward⟩)
    ⟨List.forall_mem_nil _, List.forall_mem_nil _⟩
    (Daemon.owned_initial setup tree) rfl history

/-! ### The time of an answer -/

/-- A request is answered by a certain time: its answer is not given later, and it is there once
that time has come. -/
structure AnswersBy (fleet : Fleet) (serial last : Nat) : Prop where
  intime : ∀ outcome time, fleet.answer? serial = some (outcome, time) → time ≤ last
  settled : last ≤ fleet.now → (fleet.answer? serial).isSome = true

theorem AnswersBy.weaken {first last : Nat} (answers : fleet.AnswersBy serial first)
    (sooner : first ≤ last) : fleet.AnswersBy serial last where
  intime outcome time answer := Nat.le_trans (answers.intime outcome time answer) sooner
  settled past := answers.settled (Nat.le_trans sooner past)

/-- A request that was told its answer by some time is answered by then. -/
theorem IsTold.answersBy {outcome : Except FleetError Vm} {time last : Nat}
    (told : fleet.IsTold serial outcome time) (intime : time ≤ last) :
    fleet.AnswersBy serial last := by
  refine ⟨fun other moment same => ?_, fun _ => by rw [told.answer?]; rfl⟩
  obtain ⟨-, rfl⟩ := Prod.mk.inj (Option.some.inj (told.answer?.symm.trans same))
  exact intime

/-- A request that has handed its machine over is answered by the deadline of its boot. -/
theorem InOrder.answersBy (inOrder : fleet.InOrder asked) (rest : fleet.due? = none)
    (found : fleet.daemon.boots[serial]? = some boot) (handed : boot.request.isAlone = false)
    (running : fleet.guest? serial = some guest) :
    fleet.AnswersBy serial (fleet.deadline guest) := by
  cases inOrder.resting rest found with
  | refused outcome time bare | unjudged bare =>
    have none : fleet.guest? serial = none := bare.guest
    rw [none] at running
    cases running
  | abandoned other vm manned phase =>
    have broken : boot.request = .abandoned := phase
    rw [broken] at handed
    cases handed
  | booting other vm pending race watching entered shows alive report deadline =>
    obtain rfl := Option.some.inj (running.symm.trans pending.manned.running)
    have waits : boot.request = .waiting := pending.request
    refine ⟨fun outcome time answer => ?_, fun past => ?_⟩
    · rw [answer?_of_unanswered found (by rw [waits]; rfl)] at answer
      cases answer
    · have before : fleet.now < fleet.deadline guest := deadline
      exact absurd past (Nat.not_le_of_lt before)
  | living other time vm manned race settles phase answers =>
    obtain rfl := Option.some.inj (running.symm.trans manned.running)
    exact IsTold.answersBy ⟨boot, found, phase, answers⟩ settles.le_deadline
  | left other time ending manned race settles phase answers =>
    obtain rfl := Option.some.inj (running.symm.trans manned.running)
    exact IsTold.answersBy ⟨boot, found, phase, answers⟩ settles.le_deadline

/-! ### Histories -/

theorem play_append (fleet : Fleet) (history more : List Action) :
    fleet.play (history ++ more) = (fleet.play history).play more :=
  List.foldl_append

theorem Onset.setup {action : Action} (onset : Onset fleet action later) :
    later.daemon.setup = fleet.daemon.setup := by
  cases onset with
  | arrival draft nobody => rfl
  | halt identities daemon halts => exact halts.setup
  | aside _ nobody alike => exact alike.setup

theorem setup_play (owned : fleet.daemon.Owned) (rest : fleet.due? = none)
    (history : List Action) : (fleet.play history).daemon.setup = fleet.daemon.setup := by
  refine play_keeps (fun later => later.daemon.setup = fleet.daemon.setup)
    (fun same onset => onset.setup.trans same) (fun same due => ?_) (fun same _ _ _ => same) rfl
    owned rest history
  obtain ⟨next, -, stepped, moved, -⟩ := happen_of_due? due
  rw [moved]
  exact (Daemon.setup_of_rule (Daemon.rule_of_step? stepped)).trans same

/-- A request is where it was put, or a step has taken it on, after any onset. -/
theorem Onset.boot? {action : Action} (onset : Onset fleet action later)
    (found : fleet.daemon.boots[serial]? = some boot) :
    later.daemon.boots[serial]? = some boot := by
  cases onset with
  | arrival draft nobody =>
    exact (List.getElem?_append_left (List.getElem?_eq_some_iff.mp found).1).trans found
  | halt identities daemon halts => exact halts.boots ▸ found
  | aside _ nobody alike => exact alike.boots ▸ found

/-- A request that has handed its machine over stays so, whatever is asked. -/
theorem handed_play (owned : fleet.daemon.Owned) (rest : fleet.due? = none)
    (found : fleet.daemon.boots[serial]? = some boot) (handed : boot.request.isAlone = false)
    (history : List Action) : ∃ after, (fleet.play history).daemon.boots[serial]? = some after ∧
      after.request.isAlone = false := by
  refine play_keeps (fun later => ∃ after, later.daemon.boots[serial]? = some after ∧
    after.request.isAlone = false) ?_ ?_ (fun still _ _ _ => still) ⟨boot, found, handed⟩ owned rest
    history
  · rintro fleet action later ⟨after, present, working⟩ onset
    exact ⟨after, onset.boot? present, working⟩
  · rintro fleet place going event ⟨after, present, working⟩ due
    exact (Passes.start.happen due).handed present working

/-- A request that broke off stays as it is, whatever is asked. -/
theorem brokeOff_play (owned : fleet.daemon.Owned) (rest : fleet.due? = none)
    (broke : fleet.daemon.BrokeOff serial boot) (history : List Action) :
    (fleet.play history).daemon.BrokeOff serial boot := by
  refine play_keeps (fun later => later.daemon.BrokeOff serial boot) (fun broke onset => ?_)
    (fun broke due => ?_) (fun broke _ _ _ => broke) broke owned rest history
  · exact ⟨onset.boot? broke.found, broke.request, broke.race, broke.reaper⟩
  · obtain ⟨next, -, stepped, moved, -⟩ := happen_of_due? due
    rw [moved]
    exact broke.rule (Daemon.rule_of_step? stepped)

/-- A request that broke off is never answered. -/
theorem answer?_of_brokeOff (owned : fleet.daemon.Owned) (rest : fleet.due? = none)
    (broke : fleet.daemon.BrokeOff serial boot) (history : List Action) :
    (fleet.play history).answer? serial = none :=
  answer?_of_unanswered (brokeOff_play owned rest broke history).found
    (RequestPhase.isAnswered_of_isBroken broke.request)

/-- The time that a boot is given. -/
def bootLimit (fleet : Fleet) : Nat :=
  milliseconds fleet.daemon.setup.settings.bootTimeout

/-- At rest a request that has handed its machine over is answered no later than a boot may take
from now, whatever else is asked after it. -/
theorem InOrder.answersBy_play (inOrder : fleet.InOrder asked) (rest : fleet.due? = none)
    (dated : fleet.IsDated) (found : fleet.daemon.boots[serial]? = some boot)
    (handed : boot.request.isAlone = false) (meanwhile : List Action) :
    (fleet.play meanwhile).AnswersBy serial (fleet.now + fleet.bootLimit) := by
  rcases (inOrder.resting rest found).told with
    ⟨guest, running, -, -⟩ | ⟨outcome, time, phase, told⟩ | broken
  · have running : fleet.guest? serial = some guest := running
    have goesOn : fleet.GoesOn guest serial := ⟨guest, running, guest.goesOn_self⟩
    obtain ⟨after, present, onward⟩ := goesOn.play inOrder.owned rest meanwhile
    obtain ⟨later, still⟩ := inOrder.play rest meanwhile
    obtain ⟨_, place, working⟩ := handed_play inOrder.owned rest found handed meanwhile
    refine (later.answersBy still place working present).weaken ?_
    have started := dated.guests guest (List.mem_of_find?_eq_some running)
    unfold deadline bootLimit
    rw [setup_play inOrder.owned rest meanwhile, onward.startedAt]
    exact Nat.add_le_add_right started _
  · have answer : fleet.IsTold serial outcome time := ⟨boot, found, phase, told⟩
    refine (answer.play inOrder.owned rest meanwhile).answersBy ?_
    have member : time ∈ fleet.answersOf serial := by
      rw [show fleet.answersOf serial = [time] from told]
      exact List.mem_singleton_self time
    obtain ⟨answered, among, rfl⟩ := List.mem_map.mp member
    exact Nat.le_trans (dated.answers answered (List.mem_of_mem_filter among))
      (Nat.le_add_right _ _)
  · have broken : boot.request.isBroken = true := broken
    rw [RequestPhase.isAlone_of_isBroken broken] at handed
    cases handed

/-- At rest a request that was judged has handed its machine over, if the deadline of a boot that
starts now can be told. -/
theorem InOrder.handed_of_told (inOrder : fleet.InOrder asked) (rest : fleet.due? = none)
    (dated : fleet.IsDated) (found : fleet.daemon.boots[serial]? = some boot)
    (judged : boot.request ≠ .unjudged) (told : fleet.now + fleet.bootLimit < clockEnd) :
    boot.request.isAlone = false := by
  refine Bool.eq_false_iff.mpr fun alone => ?_
  rcases (inOrder.resting rest found).untold alone with ⟨phase, -⟩ | ⟨guest, running, untold⟩
  · exact judged phase
  · have running : fleet.guest? serial = some guest := running
    have started := dated.guests guest (List.mem_of_find?_eq_some running)
    have late : clockEnd ≤ guest.startedAt + fleet.bootLimit := untold
    omega

/-! ### What happens to a request that arrives -/

/-- The first thing that happens to a request is its admission. -/
theorem due?_submit (rest : fleet.due? = none) (draft : Vm) :
    due? { fleet with daemon := fleet.daemon.submit draft } =
      some (fleet.daemon.boots.length, Boot.ofDraft draft,
        .reserve fleet.daemon.boots.length fleet.draws 0) := by
  have others : fleet.daemon.boots.zipIdx.findSome? (fun row =>
      (next? { fleet with daemon := fleet.daemon.submit draft } row.2 row.1).map
        (row.2, row.1, ·)) = none := rest
  show (fleet.daemon.boots ++ [Boot.ofDraft draft]).zipIdx.findSome? (fun row =>
    (next? { fleet with daemon := fleet.daemon.submit draft } row.2 row.1).map
      (row.2, row.1, ·)) = _
  rw [List.zipIdx_append, List.findSome?_append, others, Nat.zero_add]
  rfl

/-- The request was judged, and its sum was told. -/
def IsJudged (fleet : Fleet) (serial : Nat) : Prop :=
  ∃ boot, fleet.daemon.boots[serial]? = some boot ∧ boot.request ≠ .unjudged ∧
    boot.rank < RequestPhase.arrived.rank

/-- A request is judged once. -/
theorem IsJudged.happen (judged : fleet.IsJudged serial)
    (due : fleet.due? = some (place, going, event)) :
    (fleet.happen place going event).IsJudged serial := by
  obtain ⟨boot, found, told, near⟩ := judged
  obtain ⟨present, happening⟩ := next?_of_due? due
  obtain ⟨-, next, after, stepped, boots, nearer⟩ := furthers_of_next? present happening
  have moved : (fleet.happen place going event).daemon = next := by
    rw [daemon_happen, stepped]
    rfl
  unfold IsJudged
  rw [moved]
  by_cases same : place = serial
  · subst same
    obtain rfl := Option.some.inj (found.symm.trans present)
    have there : next.boots[place]? = some after := by
      rw [boots, Daemon.boots_set present, if_pos rfl]
    refine ⟨after, there, fun untold => ?_, Nat.lt_trans nearer near⟩
    rcases Daemon.breaksOff_of_rule (Daemon.rule_of_step? stepped) there (by rw [untold]; rfl) with
      ⟨other, before, same⟩ | breaks
    · obtain rfl := Option.some.inj (before.symm.trans found)
      exact told (same.trans untold)
    · rw [untold] at breaks
      cases breaks with
      | unjudged other draws time before phase =>
        obtain rfl := Option.some.inj (before.symm.trans found)
        unfold Boot.rank at near
        rw [phase] at near
        omega
  · refine ⟨boot, ?_, told, near⟩
    rw [boots, Daemon.boots_set present, if_neg same]
    exact found

theorem IsJudged.passes (judged : fleet.IsJudged serial) (passed : Passes fleet later) :
    later.IsJudged serial :=
  passed.keeps (IsJudged · serial) (fun judged due => judged.happen due)
    (fun judged _ _ _ => judged) judged

/-- A request whose memory and that of all machines have a sum that can be told is judged. -/
theorem isJudged_start (rest : fleet.due? = none) (draft : Vm)
    (sum : fleet.daemon.shared.registry.committedMb +
      (fleet.daemon.setup.settings.fit draft).memoryMb.toNat < Text.word64) :
    (fleet.start draft).1.IsJudged fleet.daemon.boots.length := by
  have due := due?_submit rest draft
  obtain ⟨found, happening⟩ := next?_of_due? due
  obtain ⟨-, next, after, stepped, boots, nearer⟩ := furthers_of_next? found happening
  have there : next.boots[fleet.daemon.boots.length]? = some after := by
    rw [boots, Daemon.boots_set found, if_pos rfl]
  have rule := Daemon.Rule.reserve fleet.draws 0 found rfl
  obtain rfl := Option.some.inj ((Daemon.step?_of_rule rule).symm.trans stepped)
  have judged : (happen { fleet with daemon := fleet.daemon.submit draft }
      fleet.daemon.boots.length (Boot.ofDraft draft)
      (.reserve fleet.daemon.boots.length fleet.draws 0)).IsJudged fleet.daemon.boots.length := by
    refine ⟨after, ?_, fun untold => ?_, nearer⟩
    · rw [daemon_happen, stepped]
      exact there
    · exact Daemon.admission_ne_broken fleet.draws 0 sum
        ((Daemon.judged_reserve fleet.draws 0 found there).2.mp untold)
  refine judged.passes ?_
  show Passes _ (settleWithin (eventsOfRequest * (fleet.daemon.submit draft).boots.length + 1) _)
  rw [settleWithin, due]
  exact passes_settleWithin _ _

/-- A request that arrives is answered no later than a boot may take, whatever else is asked
after it, and who waits for the answer gets it, if the sum of the memory and the deadline of its
boot can be told. -/
theorem answersBy_start {setup : Setup} {tree : Tree} {scripts : List Script}
    {source : Nat → Uuid} (history : List Action)
    (played : (Fleet.initial (Daemon.initial setup tree) scripts source).play history = fleet)
    (draft : Vm)
    (sum : fleet.daemon.shared.registry.committedMb + (setup.settings.fit draft).memoryMb.toNat <
      Text.word64)
    (told : fleet.now + milliseconds setup.settings.bootTimeout < clockEnd)
    (meanwhile : List Action) :
    ((fleet.start draft).1.play meanwhile).AnswersBy fleet.daemon.boots.length
      (fleet.now + milliseconds setup.settings.bootTimeout) ∧
    ∃ outcome time, (((fleet.start draft).1.play meanwhile).act
        (.wait fleet.daemon.boots.length)).1.answer? fleet.daemon.boots.length =
          some (outcome, time) ∧
      time ≤ fleet.now + milliseconds setup.settings.bootTimeout := by
  have begun : (Fleet.initial (Daemon.initial setup tree) scripts source).play
      (history ++ [.start draft]) = (fleet.start draft).1 := by
    rw [play_append, played]
    rfl
  have idle : (Fleet.initial (Daemon.initial setup tree) scripts source).due? = none := rfl
  have before := setup_play (Daemon.owned_initial setup tree) idle history
  obtain ⟨-, quiet⟩ := inOrder_play setup tree scripts source history
  obtain ⟨inOrder, rest⟩ := inOrder_play setup tree scripts source (history ++ [.start draft])
  have dated := isDated_play setup tree scripts source (history ++ [.start draft])
  have same := setup_play (Daemon.owned_initial setup tree) idle (history ++ [.start draft])
  rw [begun] at inOrder rest dated same
  rw [played] at quiet before
  have now : (fleet.start draft).1.now = fleet.now := now_settleWithin _ _
  have limit : (fleet.start draft).1.bootLimit = milliseconds setup.settings.bootTimeout := by
    unfold bootLimit
    rw [same]
    rfl
  have settings : fleet.daemon.setup.settings = setup.settings := congrArg (·.settings) before
  obtain ⟨boot, found, judged, -⟩ := isJudged_start quiet draft (settings ▸ sum)
  have handed := inOrder.handed_of_told rest dated found judged (by rw [now, limit]; exact told)
  have answers := fun meanwhile => inOrder.answersBy_play rest dated found handed meanwhile
  rw [now, limit] at answers
  refine ⟨answers meanwhile, ?_⟩
  obtain ⟨later, still⟩ := inOrder.play rest meanwhile
  obtain ⟨_, present, working⟩ := handed_play inOrder.owned rest found handed meanwhile
  obtain ⟨⟨outcome, time⟩, answer⟩ :=
    Option.isSome_iff_exists.mp (later.await still present working)
  refine ⟨outcome, time, answer, ?_⟩
  have waited := (answers (meanwhile ++ [.wait fleet.daemon.boots.length])).intime outcome time
  rw [play_append] at waited
  exact waited answer

/-! ### The reply to a request that waits -/

/-- The reply of a daemon under rehearsal of which other things are asked while it works on a
request to run a machine. -/
def replyMeanwhile {α : Type} (fleet : Fleet) (info : DaemonInfo) (meanwhile : List Action) :
    Client.Question α → Option (Client.Reply α) × Fleet
  | .run draft =>
    let (begun, serial) := fleet.start draft
    let ended := (begun.play meanwhile).await serial
    ((ended.answer? serial).map fun (outcome, time) =>
      ⟨time - fleet.now, outcome.mapError fun error => travelled error.flatten⟩, ended)
  | question => fleet.reply info question

/-- The link to a daemon of which other things are asked meanwhile. -/
def linkMeanwhile (info : DaemonInfo) (meanwhile : List Action) : Client.Link (StateM Fleet) :=
  ⟨fun question fleet => fleet.replyMeanwhile info meanwhile question⟩

/-- A client starts a session and asks for a machine. -/
def runInSession {m : Type → Type} [Monad m] (link : Client.Link m) (config : Config)
    (draft : Vm) : Client.Talk m Vm := do
  let session ← Client.Session.start link config
  session.ask link (.run draft)

/-- The session starts, and the request is made with the patience that the configuration
grants. -/
theorem run_runInSession {config : Config} {socket : Socket}
    (named : config.endpoint = .ok socket) (info : DaemonInfo) (meanwhile : List Action)
    (draft : Vm) (text : String) (fleet : Fleet) :
    ((runInSession (linkMeanwhile info meanwhile) config draft).run.run text).run fleet =
      (((Client.call socket.render .vmRun (1000 * config.callSeconds.toNat)
          (fleet.replyMeanwhile info meanwhile (.run draft)).1).1, text),
        (fleet.replyMeanwhile info meanwhile (.run draft)).2) := by
  unfold runInSession Client.Session.start
  rw [named]
  exact Client.run_settle _ text _

/-- The time that a valid configuration lets a client wait covers every boot whose numbers can be
told, whatever the runner does and whatever else is asked of the daemon in the meantime. Where the
sum of the memory fits a word and the deadline lies before the end of all times, the request is
answered less than that time after it was made, and within the time that a boot may take; so a
client that starts a session and asks for a machine is told how the boot ended. -/
theorem patience_covers_boot {config : Config} {environment : Environment} {hostOctets : UInt64}
    {setup : Setup} {tree : Tree} {scripts : List Script} {source : Nat → Uuid}
    (valid : config.validate = .ok ())
    (limits : setup.settings = config.settings environment hostOctets) (history : List Action)
    (played : (Fleet.initial (Daemon.initial setup tree) scripts source).play history = fleet)
    (draft : Vm)
    (sum : fleet.daemon.shared.registry.committedMb +
      (clampMemory draft.memoryMb config.minMemoryMb config.maxMemoryMb).toNat < Text.word64)
    (told : fleet.now + milliseconds config.bootSeconds < clockEnd) (meanwhile : List Action) :
    ((fleet.start draft).1.play meanwhile).AnswersBy fleet.daemon.boots.length
      (fleet.now + milliseconds config.bootSeconds) ∧
    ∃ outcome time,
      (((fleet.start draft).1.play meanwhile).await fleet.daemon.boots.length).answer?
        fleet.daemon.boots.length = some (outcome, time) ∧
      time < fleet.now + milliseconds config.callSeconds ∧
      (∀ address info, Client.call address .vmRun (milliseconds config.callSeconds)
          (fleet.replyMeanwhile info meanwhile (.run draft)).1 =
        (outcome.mapError fun error => .daemon (travelled error.flatten), time - fleet.now)) ∧
      ∀ info text,
        ((runInSession (linkMeanwhile info meanwhile) config draft).run.run text).run fleet =
          ((outcome.mapError fun error => .daemon (travelled error.flatten), text),
            ((fleet.start draft).1.play meanwhile).await fleet.daemon.boots.length) := by
  have granted : milliseconds config.bootSeconds < milliseconds config.callSeconds :=
    Nat.mul_lt_mul_of_pos_left
      (UInt64.lt_iff_toNat_lt.mp (Config.bootSeconds_lt_of_validate valid)) (by decide)
  have taken : setup.settings.bootTimeout = config.bootSeconds := by
    rw [limits]
    rfl
  have fits : (setup.settings.fit draft).memoryMb =
      clampMemory draft.memoryMb config.minMemoryMb config.maxMemoryMb := by
    rw [limits]
    rfl
  obtain ⟨answers, outcome, time, answer, intime⟩ := answersBy_start history played draft
    (by rw [fits]; exact sum) (by rw [taken]; exact told) meanwhile
  rw [taken] at answers intime
  have replied : ∀ info, fleet.replyMeanwhile info meanwhile (.run draft) =
      (some ⟨time - fleet.now, outcome.mapError fun error => travelled error.flatten⟩,
        ((fleet.start draft).1.play meanwhile).await fleet.daemon.boots.length) := by
    intro info
    refine Prod.ext ?_ rfl
    exact congrArg (Option.map _) answer
  have called : ∀ address info, Client.call address .vmRun (milliseconds config.callSeconds)
      (fleet.replyMeanwhile info meanwhile (.run draft)).1 =
        (outcome.mapError fun error => .daemon (travelled error.flatten), time - fleet.now) := by
    intro address info
    have patient : time - fleet.now ≤ milliseconds config.callSeconds := by omega
    rw [replied, Client.call, if_pos patient]
    cases outcome <;> rfl
  refine ⟨answers, outcome, time, answer, by omega, called, fun info text => ?_⟩
  obtain ⟨socket, named⟩ := Config.exists_endpoint_of_validate valid
  have ended := called socket.render info
  refine (run_runInSession named info meanwhile draft text fleet).trans ?_
  unfold milliseconds at ended
  rw [ended, replied]

/-- A daemon with the limits of a configuration, and a runner that stays silent and heeds no
request to end. -/
def silentRunner (config : Config) : Fleet :=
  Fleet.initial
    (Daemon.initial
      { twoRunners.daemon.setup with
        settings := config.settings ⟨none, none, none, none⟩ 17179869184 }
      twoRunners.daemon.tree)
    [⟨none, false, none, none, none, none, none⟩] twoRunners.source

/-- The standard configuration, with a place for what runs. -/
def ordinary : Config :=
  { Config.standard with runRoot := some "/r" }

/-- A client is told that the boot of a silent runner took too long, ten seconds before its
patience would have ended, although the machine was asked to end meanwhile. -/
theorem patience_covers_boot_of_silentRunner : ∃ refusal ended,
    Client.call "127.0.0.1:2511" .vmRun 40000
        ((silentRunner ordinary).replyMeanwhile ⟨"", "", 0, 0⟩ [.advance 10000, .stop []]
          (.run (Vm.draft "alpha" "1.2.3"))).1 = (.error (.daemon refusal), 30000) ∧
      ((runInSession (linkMeanwhile ⟨"", "", 0, 0⟩ [.advance 10000, .stop []]) ordinary
          (Vm.draft "alpha" "1.2.3")).run.run "").run (silentRunner ordinary) =
        ((.error (.daemon refusal), ""), ended) := by
  have shown : (((((silentRunner ordinary).start (Vm.draft "alpha" "1.2.3")).1.play
      [.advance 10000, .stop []]).await 0).answer? 0).map
        (fun (outcome, time) => (outcome.toOption.isSome, time)) = some (false, 30000) := by
    decide +kernel
  obtain ⟨-, outcome, time, answer, -, called, talked⟩ :=
    patience_covers_boot (by decide +kernel) rfl []
      (rfl : silentRunner ordinary = silentRunner ordinary) (Vm.draft "alpha" "1.2.3")
      (by decide +kernel) (by decide +kernel) [.advance 10000, .stop []]
  have answer : ((((silentRunner ordinary).start (Vm.draft "alpha" "1.2.3")).1.play
      [.advance 10000, .stop []]).await 0).answer? 0 = some (outcome, time) := answer
  rw [answer] at shown
  obtain ⟨failed, rfl⟩ := Prod.mk.inj (Option.some.inj shown)
  cases outcome with
  | ok vm => cases failed
  | error error => exact ⟨travelled error.flatten, _, called _ _, talked _ _⟩

/-- The last but one second of all for a boot, and the last one for a call. -/
def everPatient : Config :=
  { ordinary with
    bootSeconds := UInt64.ofNat (Text.word64 - 2)
    callSeconds := UInt64.ofNat (Text.word64 - 1) }

/-- A valid configuration gives a boot so much time that its deadline cannot be told. The request
breaks off when its runner has started, and whatever is asked afterwards it has no answer. -/
theorem patience_misses_untold_boot :
    everPatient.validate = .ok () ∧
      ∀ meanwhile, ((((silentRunner everPatient).start (Vm.draft "alpha" "1.2.3")).1.play
        meanwhile).answer? 0) = none := by
  refine ⟨by decide +kernel, fun meanwhile => ?_⟩
  have left : (((silentRunner everPatient).start (Vm.draft "alpha" "1.2.3")).1.daemon.boots[0]?.any
      fun boot => boot.request.isBroken && boot.race == .absent && boot.reaper == .absent) =
        true := by
    decide +kernel
  obtain ⟨boot, found, left⟩ := (Option.any_eq_true _ _).mp left
  simp only [Bool.and_eq_true, beq_iff_eq] at left
  obtain ⟨⟨broken, race⟩, reaper⟩ := left
  have owned : (silentRunner everPatient).daemon.Owned := Daemon.owned_initial _ _
  obtain ⟨-, orderly, rest⟩ := passes_start owned (Vm.draft "alpha" "1.2.3")
  exact answer?_of_brokeOff orderly rest ⟨found, broken, race, reaper⟩ meanwhile

end Fleet

end Rehearsal

end VmFleet
