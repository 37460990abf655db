/-
This file proves in which order requests on images were served when they ran at the same
time. Where no scan falls between the take and the deletion of a removal, the replies are
those of an order in which each removal takes and deletes at once. The other order is
followed at a distance: it does nothing at a take, takes and deletes at the deletion, and
refuses whom it has to refuse before the next scan, when nothing is left to be deleted.
-/

import Mathlib.Data.List.Permutation
import VmFleet.Proofs.Images.Interleaving

namespace VmFleet

open ImageStore

theorem ImageIndex.lists_iff_count {index : ImageIndex} {channel text : String} :
    index.Lists channel text ↔ 0 < (index.texts channel).count text := by
  rw [List.count_pos_iff, mem_texts]

theorem ImageIndex.count_dropping (index : ImageIndex) (channel text other spelling : String) :
    ((index.dropping channel text).texts other).count spelling =
      (index.texts other).count spelling - if channel = other ∧ text = spelling then 1 else 0 := by
  rw [texts_dropping]
  by_cases same : channel = other
  · subst same
    rw [if_pos rfl, List.count_erase]
    simp only [beq_iff_eq, true_and]
  · simp only [same, if_false, false_and, Nat.sub_zero]

namespace ImageRace

/-- A request makes its next step, and a removal that has taken its version deletes at once. -/
def join? (race : ImageRace) (serial : Nat) : Option ImageRace :=
  (race.advance? serial).bind fun next =>
    if (next.calls[serial]?).any (·.phase.isTaken) then next.advance? serial else some next

/-- The requests make joined steps in an order. -/
def joins? (race : ImageRace) (order : List Nat) : Option ImageRace :=
  order.foldlM join? race

/-- A request is served as a whole. -/
def serve? (race : ImageRace) (serial : Nat) : Option ImageRace :=
  match race.calls[serial]? with
  | some ⟨request, .arrived⟩ =>
    let (daemon, reply) := race.daemon.serve request
    some ⟨daemon, race.calls.set serial ⟨request, .answered reply⟩⟩
  | _ => none

/-- The requests are served one after the other in an order. -/
def serves? (race : ImageRace) (order : List Nat) : Option ImageRace :=
  order.foldlM serve? race

/-! ### Following at a distance -/

/-- A request that is behind another run of it: it waits with its take until the deletion, and
with its refusal. -/
inductive Lags (index : ImageIndex) : ImageCall → ImageCall → Prop
  | same {call : ImageCall} (settled : call.phase.isTaken = false) : Lags index call call
  | taken {channel version : String} {taken : Version} (spelling : taken.render = version) :
    Lags index ⟨.remove channel version, .taken taken⟩ ⟨.remove channel version, .arrived⟩
  | refused {channel version : String} (unlisted : ¬ index.Lists channel version) :
    Lags index
      ⟨.remove channel version, .answered (.error (.imageNotFound channel version))⟩
      ⟨.remove channel version, .arrived⟩

/-- How many removals of a version are between their take and their deletion. -/
def pending (race : ImageRace) (channel version : String) : Nat :=
  race.calls.countP fun call => decide (call.IsBetween channel version)

/-- A race that is behind another one: the disk is the same, and the index still has what the
other one has taken and not deleted. -/
structure Trails (behind ahead : ImageRace) : Prop where
  setup : behind.daemon.setup = ahead.daemon.setup
  tree : behind.daemon.tree = ahead.daemon.tree
  calls : List.Forall₂ (Lags ahead.daemon.shared.media) ahead.calls behind.calls
  listed : ∀ channel version,
    (behind.daemon.shared.media.texts channel).count version =
      (ahead.daemon.shared.media.texts channel).count version + ahead.pending channel version

section Step

variable {race : ImageRace} {serial : Nat} {after : Daemon}

/-- A step that takes no version is a joined step. -/
theorem join?_of_advances {call other : ImageCall} (found : race.calls[serial]? = some call)
    (advances : call.Advances race.daemon after other) (settled : other.phase.isTaken = false) :
    race.join? serial = some ⟨after, race.calls.set serial other⟩ := by
  have inside := (List.getElem?_eq_some_iff.mp found).1
  unfold join?
  rw [advance?_of_advances found advances, Option.bind_some, List.getElem?_set_self inside,
    Option.any_some, settled]
  rfl

/-- A step that takes a version goes on to the deletion. -/
theorem join?_of_takes {call between other : ImageCall} {last : Daemon}
    (found : race.calls[serial]? = some call)
    (takes : call.Advances race.daemon after between) (taken : between.phase.isTaken = true)
    (deletes : between.Advances after last other) :
    race.join? serial = some ⟨last, race.calls.set serial other⟩ := by
  have inside := (List.getElem?_eq_some_iff.mp found).1
  have there := List.getElem?_set_self (a := between) inside
  have onward : (⟨after, race.calls.set serial between⟩ : ImageRace).advance? serial = _ :=
    advance?_of_advances there deletes
  unfold join?
  rw [advance?_of_advances found takes, Option.bind_some, there, Option.any_some, taken, if_pos rfl,
    onward, List.set_set]

/-- A joined step is one or two steps with nothing in between. -/
theorem exists_run?_of_join? {next : ImageRace} (joined : race.join? serial = some next) :
    ∃ count, race.run? (List.replicate count serial) = some next := by
  obtain ⟨between, stepped, rest⟩ := Option.bind_eq_some_iff.mp joined
  split at rest
  · exact ⟨2, (congrArg (Option.bind · _) stepped).trans (congrArg (Option.bind · pure) rest)⟩
  · exact ⟨1, (congrArg (Option.bind · pure) stepped).trans (congrArg pure (Option.some.inj rest))⟩

theorem run?_of_advances {call other : ImageCall} (found : race.calls[serial]? = some call)
    (advances : call.Advances race.daemon after other) (schedule : List Nat) :
    race.run? (serial :: schedule) =
      (⟨after, race.calls.set serial other⟩ : ImageRace).run? schedule :=
  congrArg (Option.bind · _) (advance?_of_advances found advances)

/-- To serve a request as a whole is to make its steps with nothing in between. -/
theorem exists_run?_of_serve? {next : ImageRace} (served : race.serve? serial = some next) :
    ∃ count, race.run? (List.replicate count serial) = some next := by
  unfold serve? at served
  split at served
  · rename_i request found
    have inside := (List.getElem?_eq_some_iff.mp found).1
    have again := fun call => List.getElem?_set_self (a := call) inside
    obtain rfl := Option.some.inj served
    cases request with
    | list => exact ⟨1, run?_of_advances found (.scan (.inl rfl)) []⟩
    | remove channel version =>
      simp only [Daemon.removeImage]
      rcases took : race.daemon.takeImage channel version with ⟨between, error | taken⟩
      · exact ⟨1, run?_of_advances found (.refuse took) []⟩
      · rcases deleted : between.deleteImage channel taken with ⟨left, error | done⟩
        all_goals simp only [deleted]
        · refine ⟨2, (run?_of_advances found (.take took) _).trans ?_⟩
          refine (run?_of_advances (again _) (.fail deleted) _).trans ?_
          rw [List.set_set]
          rfl
        · refine ⟨3, (run?_of_advances found (.take took) _).trans ?_⟩
          refine (run?_of_advances (again _) (.delete deleted) _).trans ?_
          rw [List.set_set]
          refine (run?_of_advances (again _) (.scan (.inr ⟨channel, version, rfl⟩)) _).trans ?_
          rw [List.set_set]
          rfl
  · cases served

end Step

/-- Where nothing is left to be deleted, all refusals can be caught up with. -/
theorem exists_joins?_of_lags {index : ImageIndex} {daemon : Daemon}
    {calls waiting : List ImageCall} (lags : List.Forall₂ (Lags index) calls waiting)
    (settled : ∀ call ∈ calls, call.phase.isTaken = false)
    (unlisted : ∀ channel version, ¬ index.Lists channel version →
      ¬ daemon.shared.media.Lists channel version) (done : List ImageCall) :
    ∃ order, (⟨daemon, done ++ waiting⟩ : ImageRace).joins? order =
      some ⟨daemon, done ++ calls⟩ := by
  induction lags generalizing done with
  | nil => exact ⟨[], rfl⟩
  | @cons call behind calls waiting here _ inductionHypothesis =>
    have later := inductionHypothesis (fun other member => settled other (.tail _ member))
      (done ++ [call])
    rw [← List.append_cons, ← List.append_cons] at later
    obtain ⟨order, caught⟩ := later
    rcases here with - | spelling | absent
    · exact ⟨order, caught⟩
    · cases settled _ List.mem_cons_self
    · rename_i channel version
      refine ⟨done.length :: order, ?_⟩
      have found : (done ++ ⟨.remove channel version, .arrived⟩ :: waiting)[done.length]? =
          some ⟨.remove channel version, .arrived⟩ := by
        simp
      have refused := Daemon.takeImage_of_not_lists (unlisted channel version absent)
      have joined : (⟨daemon, _⟩ : ImageRace).join? done.length = _ :=
        join?_of_advances found (.refuse refused) rfl
      have moved : (done ++ (⟨.remove channel version, .arrived⟩ : ImageCall) :: waiting).set
          done.length ⟨.remove channel version, .answered (.error (.imageNotFound channel version))⟩ =
          done ++ ⟨.remove channel version, .answered (.error (.imageNotFound channel version))⟩ ::
            waiting := by
        simp
      rw [moved] at joined
      exact (congrArg (Option.bind · _) joined).trans caught

/-! ### Steps that follow -/

/-- A listing answers what the disk says, whatever the index says. -/
theorem listImages_congr {daemon other : Daemon} (setup : daemon.setup = other.setup)
    (tree : daemon.tree = other.tree) :
    daemon.listImages.2 = other.listImages.2 ∧ daemon.listImages.1.tree = other.listImages.1.tree ∧
      (daemon.listImages.1.shared.media = daemon.shared.media ∧
          other.listImages.1.shared.media = other.shared.media ∨
        daemon.listImages.1.shared.media = other.listImages.1.shared.media) := by
  unfold Daemon.listImages
  rw [setup, tree]
  rcases other.setup.store.scan.run other.tree with ⟨error | index, left⟩
  · exact ⟨rfl, rfl, .inl ⟨rfl, rfl⟩⟩
  · exact ⟨rfl, rfl, .inr rfl⟩

/-- A deletion does the same wherever the disk is the same. -/
theorem advances_of_sameDisk {daemon back after : Daemon} {channel version : String}
    {taken another : Version} {other : ImageCall} (spelling : another.render = taken.render)
    (setup : back.setup = daemon.setup) (tree : back.tree = daemon.tree)
    (advances : ImageCall.Advances daemon ⟨.remove channel version, .taken taken⟩ after other) :
    ImageCall.Advances back ⟨.remove channel version, .taken another⟩
        { back with tree := after.tree } other ∧
      after = { daemon with tree := after.tree } ∧ other.phase.isTaken = false := by
  have same : back.deleteImage channel another =
      ({ back with tree := (daemon.deleteImage channel taken).1.tree },
        (daemon.deleteImage channel taken).2) := by
    unfold Daemon.deleteImage ImageStore.deleteVersion
    rw [setup, tree, spelling]
    rfl
  rcases advances with scans | _ | _ | deleted | failed
  · rcases scans with impossible | ⟨_, _, impossible⟩ <;> cases impossible
  · have kept : (daemon.deleteImage channel taken).1 = after := congrArg Prod.fst deleted
    rw [deleted] at same
    exact ⟨.delete same, kept ▸ rfl, rfl⟩
  · have kept : (daemon.deleteImage channel taken).1 = after := congrArg Prod.fst failed
    rw [failed] at same
    exact ⟨.fail same, kept ▸ rfl, rfl⟩

theorem forall₂_set {Related : ImageCall → ImageCall → Prop} {calls others : List ImageCall}
    (related : List.Forall₂ Related calls others) {call other : ImageCall}
    (here : Related call other) (serial : Nat) :
    List.Forall₂ Related (calls.set serial call) (others.set serial other) := by
  induction related generalizing serial with
  | nil => exact .nil
  | cons first rest inductionHypothesis =>
    cases serial with
    | zero => exact .cons here rest
    | succ serial => exact .cons first (inductionHypothesis serial)

theorem isBetween_taken {channel version other text : String} {taken : Version} :
    (⟨.remove channel version, .taken taken⟩ : ImageCall).IsBetween other text ↔
      channel = other ∧ version = text := by
  simp [ImageCall.IsBetween, ImagePhase.isTaken]

theorem not_isBetween {call : ImageCall} (settled : call.phase.isTaken = false)
    (channel version : String) : ¬ call.IsBetween channel version :=
  fun between => by cases settled.symm.trans between.2

theorem exists_of_forall₂ {Related : ImageCall → ImageCall → Prop} {calls others : List ImageCall}
    (related : List.Forall₂ Related calls others) {serial : Nat} {call : ImageCall}
    (found : calls[serial]? = some call) :
    ∃ other, others[serial]? = some other ∧ Related call other := by
  induction related generalizing serial with
  | nil => cases found
  | @cons _ other _ _ first rest inductionHypothesis =>
    cases serial with
    | zero =>
      obtain rfl := Option.some.inj found
      exact ⟨other, rfl, first⟩
    | succ serial => exact inductionHypothesis found

section Follow

variable {ahead behind next : ImageRace} {serial : Nat}

theorem pending_set {race : ImageRace} {call : ImageCall} (found : race.calls[serial]? = some call)
    (daemon : Daemon) (other : ImageCall) (channel version : String) :
    (⟨daemon, race.calls.set serial other⟩ : ImageRace).pending channel version =
      race.pending channel version - (if call.IsBetween channel version then 1 else 0) +
        (if other.IsBetween channel version then 1 else 0) := by
  obtain ⟨inside, rfl⟩ := List.getElem?_eq_some_iff.mp found
  unfold pending
  rw [List.countP_set inside]
  simp only [decide_eq_true_eq]

theorem pending_pos {race : ImageRace} {call : ImageCall} (found : race.calls[serial]? = some call)
    {channel version : String} (between : call.IsBetween channel version) :
    0 < race.pending channel version :=
  List.countP_pos_iff.mpr ⟨call, List.mem_of_getElem? found, decide_eq_true between⟩

theorem pending_eq_zero (settled : ∀ call ∈ ahead.calls, call.phase.isTaken = false)
    (channel version : String) : ahead.pending channel version = 0 := by
  unfold pending
  rw [List.countP_eq_zero]
  intro call member between
  exact not_isBetween (settled call member) channel version (of_decide_eq_true between)

/-- Where nothing is left to be deleted, a race catches up with the one it follows. -/
theorem Trails.caughtUp (trails : behind.Trails ahead)
    (settled : ∀ call ∈ ahead.calls, call.phase.isTaken = false) :
    ∃ order, behind.joins? order = some ⟨behind.daemon, ahead.calls⟩ := by
  refine exists_joins?_of_lags trails.calls settled (fun channel version unlisted => ?_) []
  rw [ImageIndex.lists_iff_count, trails.listed, pending_eq_zero settled, Nat.add_zero,
    ← ImageIndex.lists_iff_count]
  exact unlisted

/-- A scan is followed by catching up and scanning. -/
theorem Trails.scan (trails : behind.Trails ahead) {call : ImageCall}
    (found : ahead.calls[serial]? = some call) (scans : call.Scans)
    (settled : ∀ other ∈ ahead.calls, other.phase.isTaken = false) :
    ∃ order left, behind.joins? order = some left ∧
      left.Trails ⟨ahead.daemon.listImages.1,
        ahead.calls.set serial ⟨call.request, .answered ahead.daemon.listImages.2⟩⟩ := by
  obtain ⟨order, caught⟩ := trails.caughtUp settled
  have joined : (⟨behind.daemon, ahead.calls⟩ : ImageRace).join? serial = _ :=
    join?_of_advances found (.scan scans) rfl
  obtain ⟨reply, disk, index⟩ := listImages_congr trails.setup trails.tree
  rw [reply] at joined
  have settledAfter : ∀ other ∈ ahead.calls.set serial
      ⟨call.request, .answered ahead.daemon.listImages.2⟩, other.phase.isTaken = false :=
    forall_mem_set rfl settled
  refine ⟨order ++ [serial], ⟨behind.daemon.listImages.1,
    ahead.calls.set serial ⟨call.request, .answered ahead.daemon.listImages.2⟩⟩, ?_, ?setup, disk,
    ?calls, fun channel version => ?listed⟩
  · unfold joins?
    rw [List.foldlM_append]
    exact (congrArg (Option.bind · _) caught).trans (congrArg (Option.bind · pure) joined)
  case setup =>
    rw [Daemon.setup_listImages, Daemon.setup_listImages, trails.setup]
  case calls =>
    exact List.forall₂_same.mpr fun other member => .same (settledAfter other member)
  case listed =>
    rw [pending_eq_zero settledAfter, Nat.add_zero]
    rcases index with ⟨kept, keptToo⟩ | same
    · have before := trails.listed channel version
      rwa [pending_eq_zero settled, Nat.add_zero, ← kept, ← keptToo] at before
    · rw [same]

/-- Who lags behind an index lags behind what is left of it. -/
theorem Lags.dropping {index : ImageIndex} {call other : ImageCall} (lags : Lags index call other)
    (channel version : String) : Lags (index.dropping channel version) call other := by
  rcases lags with settled | spelling | unlisted
  · exact .same settled
  · exact .taken spelling
  · exact .refused fun listed => unlisted listed.of_dropping

/-- A request that has just arrived has just arrived in the race that follows. -/
theorem Trails.arrived (trails : behind.Trails ahead) {request : ImageRequest}
    (found : ahead.calls[serial]? = some ⟨request, .arrived⟩) :
    behind.calls[serial]? = some ⟨request, .arrived⟩ := by
  obtain ⟨late, there, lags⟩ := exists_of_forall₂ trails.calls found
  cases lags
  exact there

theorem set_eq_self {calls : List ImageCall} {call : ImageCall}
    (found : calls[serial]? = some call) : calls.set serial call = calls := by
  obtain ⟨inside, rfl⟩ := List.getElem?_eq_some_iff.mp found
  exact List.set_getElem_self inside

/-- A take is not followed yet. -/
theorem Trails.take (trails : behind.Trails ahead) {channel version : String} {taken : Version}
    (found : ahead.calls[serial]? = some ⟨.remove channel version, .arrived⟩)
    (listed : ahead.daemon.shared.media.Lists channel version) (spelling : taken.render = version) :
    behind.Trails ⟨ahead.daemon.unlisting channel version,
      ahead.calls.set serial ⟨.remove channel version, .taken taken⟩⟩ := by
  refine ⟨trails.setup, trails.tree, ?_, fun other text => ?_⟩
  · have late : Lags (ahead.daemon.shared.media.dropping channel version)
        ⟨.remove channel version, .taken taken⟩ ⟨.remove channel version, .arrived⟩ :=
      .taken spelling
    have lags := forall₂_set (trails.calls.imp fun _ _ lags => lags.dropping channel version)
      late serial
    rwa [set_eq_self (trails.arrived found)] at lags
  · have some := ImageIndex.lists_iff_count.mp listed
    have counts := trails.listed other text
    have before := ahead.daemon.shared.media.count_dropping channel version other text
    have begun : ¬ (⟨.remove channel version, .arrived⟩ : ImageCall).IsBetween other text :=
      not_isBetween rfl other text
    rw [pending_set found, if_neg begun, Nat.sub_zero]
    show _ = ((ahead.daemon.shared.media.dropping channel version).texts other).count text + _
    simp only [isBetween_taken]
    by_cases same : channel = other ∧ version = text
    · obtain ⟨rfl, rfl⟩ := same
      simp only [and_self, if_true] at before ⊢
      omega
    · simp only [if_neg same] at before ⊢
      omega

/-- A refusal is not followed yet. -/
theorem Trails.refuse (trails : behind.Trails ahead) {channel version : String}
    (found : ahead.calls[serial]? = some ⟨.remove channel version, .arrived⟩)
    (unlisted : ¬ ahead.daemon.shared.media.Lists channel version) :
    behind.Trails ⟨ahead.daemon, ahead.calls.set serial
      ⟨.remove channel version, .answered (.error (.imageNotFound channel version))⟩⟩ := by
  refine ⟨trails.setup, trails.tree, ?_, fun other text => ?_⟩
  · have lags := forall₂_set trails.calls (.refused unlisted) serial
    rwa [set_eq_self (trails.arrived found)] at lags
  · rw [pending_set found, if_neg (not_isBetween rfl other text),
      if_neg (not_isBetween rfl other text)]
    exact trails.listed other text

/-- A deletion is followed by the take and the deletion. -/
theorem Trails.delete (trails : behind.Trails ahead) {after : Daemon} {channel version : String}
    {taken : Version} {other : ImageCall}
    (found : ahead.calls[serial]? = some ⟨.remove channel version, .taken taken⟩)
    (advances :
      ImageCall.Advances ahead.daemon ⟨.remove channel version, .taken taken⟩ after other) :
    ∃ left, behind.join? serial = some left ∧
      left.Trails ⟨after, ahead.calls.set serial other⟩ := by
  obtain ⟨late, there, lags⟩ := exists_of_forall₂ trails.calls found
  rcases lags with settled | spelling | -
  · cases settled
  have between : (⟨.remove channel version, .taken taken⟩ : ImageCall).IsBetween channel version :=
    ⟨rfl, rfl⟩
  have counts := trails.listed channel version
  have one := pending_pos found between
  have listed : behind.daemon.shared.media.Lists channel version :=
    ImageIndex.lists_iff_count.mpr (by omega)
  obtain ⟨another, spellingToo, took⟩ := Daemon.takeImage_of_lists listed
  have setup : (behind.daemon.unlisting channel version).setup = ahead.daemon.setup := trails.setup
  obtain ⟨deletes, kept, settled⟩ := advances_of_sameDisk (spellingToo.trans spelling.symm) setup
    trails.tree advances
  refine ⟨_, join?_of_takes there (.take took) rfl deletes, ?_, rfl, ?_, fun name text => ?_⟩
  · rw [kept]
    exact trails.setup
  · rw [kept]
    exact forall₂_set trails.calls (.same settled) serial
  · have before := trails.listed name text
    have dropped := behind.daemon.shared.media.count_dropping channel version name text
    rw [pending_set found, if_neg (not_isBetween settled name text), kept]
    show ((behind.daemon.shared.media.dropping channel version).texts name).count text = _
    simp only [isBetween_taken]
    by_cases same : channel = name ∧ version = text
    · obtain ⟨rfl, rfl⟩ := same
      simp only [and_self, if_true] at dropped ⊢
      omega
    · simp only [if_neg same] at dropped ⊢
      omega

/-- What a race does, one that follows it can do in joined steps. -/
theorem Trails.advance (trails : behind.Trails ahead) (stepped : ahead.advance? serial = some next)
    (spared : ∀ call, ahead.calls[serial]? = some call → call.Scans →
      ∀ other ∈ ahead.calls, other.phase.isTaken = false) :
    ∃ order left, behind.joins? order = some left ∧ left.Trails next := by
  obtain ⟨call, other, found, advances, calls⟩ := advances_of_advance? stepped
  obtain ⟨after, left⟩ := next
  obtain rfl : left = ahead.calls.set serial other := calls
  have deletes : ∀ {channel version taken},
      call = ⟨.remove channel version, .taken taken⟩ →
        ∃ order left, behind.joins? order = some left ∧
          left.Trails ⟨after, ahead.calls.set serial other⟩ := by
    rintro channel version taken rfl
    obtain ⟨left, joined, follows⟩ := trails.delete found advances
    exact ⟨[serial], left, congrArg (Option.bind · pure) joined, follows⟩
  simp only at advances
  rcases advances with scans | took | refused | deleted | failed
  · exact trails.scan found scans (spared call found scans)
  · obtain ⟨listed, spelling, rfl⟩ := Daemon.takeImage_eq_ok took
    exact ⟨[], behind, rfl, trails.take found listed spelling⟩
  · obtain ⟨unlisted, rfl, rfl⟩ := Daemon.takeImage_eq_error refused
    exact ⟨[], behind, rfl, trails.refuse found unlisted⟩
  · exact deletes rfl
  · exact deletes rfl

/-- Where no scan falls between a take and a deletion, a race can be followed to its end. -/
theorem Trails.run {last : ImageRace} {schedule : List Nat} (trails : behind.Trails ahead)
    (ran : ahead.run? schedule = some last)
    (undisturbed : ahead.Undisturbed (fun _ => True) schedule) :
    ∃ order left, behind.joins? order = some left ∧ left.Trails last := by
  induction schedule generalizing ahead behind with
  | nil =>
    obtain rfl := Option.some.inj ran
    exact ⟨[], behind, rfl, trails⟩
  | cons serial schedule inductionHypothesis =>
    obtain ⟨next, stepped, ran⟩ := Option.bind_eq_some_iff.mp ran
    obtain ⟨spared, later⟩ := undisturbed
    obtain ⟨first, left, joined, follows⟩ := trails.advance stepped fun call found scans other member =>
      spared call found scans other member trivial
    obtain ⟨rest, finish, joinedToo, followsToo⟩ := inductionHypothesis follows ran (later next stepped)
    refine ⟨first ++ rest, finish, ?_, followsToo⟩
    unfold joins?
    rw [List.foldlM_append]
    exact (congrArg (Option.bind · _) joined).trans joinedToo

end Follow

theorem trails_start (daemon : Daemon) (requests : List ImageRequest) :
    (start daemon requests).Trails (start daemon requests) := by
  have settled : ∀ call ∈ (start daemon requests).calls, call.phase.isTaken = false := by
    intro call member
    obtain ⟨request, -, rfl⟩ := List.mem_map.mp member
    rfl
  refine ⟨rfl, rfl, List.forall₂_same.mpr fun call member => .same (settled call member),
    fun channel version => ?_⟩
  rw [pending_eq_zero settled]
  rfl

/-- Requests on images that ran at the same time: where no scan falls between a take and a
deletion, the replies are those of an order in which removals take and delete at once; and
where none falls between a take and a deletion of a version and the system holds on to nothing,
all removals of it but one are told that there is no such image. -/
theorem requests_in_order {config : Config} {environment : Environment} {setup : Setup}
    {tree : Tree} (valid : config.validate = .ok ())
    (stored : config.store? environment = some setup.store) (sound : tree.IsSound)
    {requests : List ImageRequest} {schedule : List Nat} {last : ImageRace}
    (ran : (start (.initial setup tree) requests).run? schedule = some last) :
    (last.IsAnswered → (start (.initial setup tree) requests).Undisturbed (fun _ => True) schedule →
      ∃ order left, (start (.initial setup tree) requests).joins? order = some left ∧
        left.calls = last.calls) ∧
    (tree.held = [] → ∀ channel version, (start (.initial setup tree) requests).Undisturbed
        (· = .remove channel version) schedule →
      ∀ (first second : Nat) reply another, first ≠ second →
        last.calls[first]? = some ⟨.remove channel version, .answered reply⟩ →
        last.calls[second]? = some ⟨.remove channel version, .answered another⟩ →
          reply = .error (.imageNotFound channel version) ∨
            another = .error (.imageNotFound channel version)) := by
  constructor
  · intro answered undisturbed
    obtain ⟨order, left, joined, follows⟩ := (trails_start _ requests).run ran undisturbed
    obtain ⟨rest, caught⟩ := follows.caughtUp fun call member => by
      obtain ⟨reply, same⟩ := answered call member
      rw [same]
      rfl
    refine ⟨order ++ rest, ⟨left.daemon, last.calls⟩, ?_, rfl⟩
    unfold joins?
    rw [List.foldlM_append]
    exact (congrArg (Option.bind · _) joined).trans caught
  · intro yields channel version undisturbed first second reply another different one other
    have first : (start (.initial setup tree) requests).TakesOnce setup.store channel version :=
      takesOnce_start _ requests
    have takes := first.run
      (Config.isConfigured_of_validate valid stored) sound yields (keepsTo_start setup tree requests)
      ran undisturbed
    exact takes.refused different one other

/-! ### Two images and several requests -/

/-- Requests to a daemon with one image in each of two channels. -/
def startEach (requests : List ImageRequest) : ImageRace :=
  start (.initial Daemon.twoChannelSetup Daemon.oneImageEach) requests

/-- A request that was answered with the versions of both channels. -/
def answeredEach (request : ImageRequest) (alpha beta : List String) : ImageCall :=
  ⟨request, .answered (.ok [⟨"alpha", alpha⟩, ⟨"beta", beta⟩])⟩

/-- An image is removed twice while another one is removed. -/
def threeRemovals : ImageRace :=
  startEach [.list, .remove "alpha" "1.0.0", .remove "alpha" "1.0.0", .remove "beta" "2.0.0"]

/-- Each removal takes or is refused before anything is deleted. -/
def takesFirst : List Nat :=
  [0, 1, 3, 2, 1, 3, 1, 3]

/-- The replies are those of an order, and one of the removals of the same image is refused. -/
theorem requests_in_order_of_takesFirst :
    ∃ last, threeRemovals.run? takesFirst = some last ∧
      (∃ order left, threeRemovals.joins? order = some left ∧ left.calls = last.calls) ∧
      ∃ reply another, last.calls[1]? = some ⟨.remove "alpha" "1.0.0", .answered reply⟩ ∧
        last.calls[2]? = some ⟨.remove "alpha" "1.0.0", .answered another⟩ ∧
        (reply = .error (.imageNotFound "alpha" "1.0.0") ∨
          another = .error (.imageNotFound "alpha" "1.0.0")) := by
  obtain ⟨last, ran, calls⟩ : ∃ last, threeRemovals.run? takesFirst = some last ∧
      last.calls = [answeredEach .list ["1.0.0"] ["2.0.0"],
        answeredEach (.remove "alpha" "1.0.0") [] [],
        ⟨.remove "alpha" "1.0.0", .answered (.error (.imageNotFound "alpha" "1.0.0"))⟩,
        answeredEach (.remove "beta" "2.0.0") [] []] :=
    Option.map_eq_some_iff.mp (by decide +kernel)
  have valid : Daemon.twoChannelConfig.validate = .ok () := by decide +kernel
  obtain ⟨order, once⟩ := requests_in_order valid Daemon.store?_twoChannelConfig
    (by decide +kernel) ran
  have answered : last.IsAnswered := by
    unfold IsAnswered
    rw [calls]
    simp [answeredEach]
  have one : last.calls[1]? = some (answeredEach (.remove "alpha" "1.0.0") [] []) := by
    rw [calls]
    rfl
  have other : last.calls[2]? = some ⟨.remove "alpha" "1.0.0",
      .answered (.error (.imageNotFound "alpha" "1.0.0"))⟩ := by
    rw [calls]
    rfl
  exact ⟨last, ran, order answered (by decide +kernel), _, _, one, other,
    once rfl "alpha" "1.0.0" (by decide +kernel) 1 2 _ _ (by decide) one other⟩

/-! ### Orders that there are not -/

/-- No order of whole requests gives the replies of a race. -/
def IsOutOfOrder (race last : ImageRace) : Prop :=
  ∀ order, order.Perm (List.range race.calls.length) →
    (race.serves? order).map (·.calls) ≠ some last.calls

theorem isOutOfOrder_of_permutations {race last : ImageRace}
    (none : ∀ order ∈ (List.range race.calls.length).permutations',
      (race.serves? order).map (·.calls) ≠ some last.calls) : race.IsOutOfOrder last :=
  fun order perm => none order (List.mem_permutations'.mpr perm)

/-- The two images, when the system holds on to the kernel of one of them. -/
def heldEach : Tree :=
  { Daemon.oneImageEach with
    held := [(["images", "alpha", "1.0.0", "vmlinuz"].reverse.map Text.octetsOf, .immutable)] }

/-- A listing falls between the take and the deletion of a removal, and the image is taken again:
both removals of it succeed. Two removals of different images take before either of them lists:
neither listing has any of the two images. And where the deletion sticks, the image is listed and
taken again, and both removals of it fail for the files. -/
theorem replies_out_of_order :
    (∃ last, (startEach [.list, .remove "alpha" "1.0.0", .list, .remove "alpha" "1.0.0"]).run?
        [0, 1, 2, 3, 1, 3, 1, 3] = some last ∧
      (∃ reply another,
        last.calls[1]? = some ⟨.remove "alpha" "1.0.0", .answered (.ok reply)⟩ ∧
        last.calls[3]? = some ⟨.remove "alpha" "1.0.0", .answered (.ok another)⟩) ∧
      (startEach [.list, .remove "alpha" "1.0.0", .list, .remove "alpha" "1.0.0"]).IsOutOfOrder
        last) ∧
    (∃ last, (startEach [.list, .remove "alpha" "1.0.0", .remove "beta" "2.0.0"]).run?
        [0, 1, 2, 1, 2, 1, 2] = some last ∧
      (startEach [.list, .remove "alpha" "1.0.0", .remove "beta" "2.0.0"]).Undisturbed
        (fun _ => True) [0, 1, 2, 1, 2, 1, 2] ∧
      (startEach [.list, .remove "alpha" "1.0.0", .remove "beta" "2.0.0"]).IsOutOfOrder last) ∧
    ((start (.initial Daemon.twoChannelSetup heldEach)
        [.list, .remove "alpha" "1.0.0", .list, .remove "alpha" "1.0.0"]).run?
          [0, 1, 1, 2, 3, 3]).map (·.calls.filterMap fun call =>
            match call.phase with
            | .answered (.error error) => some error
            | _ => none) =
      some (List.replicate 2 (.io "removing /images/alpha/1.0.0" .notPermitted)) := by
  refine ⟨?_, ?_, by decide +kernel⟩
  · obtain ⟨last, ran, calls⟩ : ∃ last,
        (startEach [.list, .remove "alpha" "1.0.0", .list, .remove "alpha" "1.0.0"]).run?
          [0, 1, 2, 3, 1, 3, 1, 3] = some last ∧
        last.calls = [answeredEach .list ["1.0.0"] ["2.0.0"],
          answeredEach (.remove "alpha" "1.0.0") [] ["2.0.0"],
          answeredEach .list ["1.0.0"] ["2.0.0"],
          answeredEach (.remove "alpha" "1.0.0") [] ["2.0.0"]] :=
      Option.map_eq_some_iff.mp (by decide +kernel)
    refine ⟨last, ran, ⟨_, _, by rw [calls]; rfl, by rw [calls]; rfl⟩,
      isOutOfOrder_of_permutations ?_⟩
    rw [calls]
    decide +kernel
  · obtain ⟨last, ran, calls⟩ : ∃ last,
        (startEach [.list, .remove "alpha" "1.0.0", .remove "beta" "2.0.0"]).run?
          [0, 1, 2, 1, 2, 1, 2] = some last ∧
        last.calls = [answeredEach .list ["1.0.0"] ["2.0.0"],
          answeredEach (.remove "alpha" "1.0.0") [] [],
          answeredEach (.remove "beta" "2.0.0") [] []] :=
      Option.map_eq_some_iff.mp (by decide +kernel)
    refine ⟨last, ran, by decide +kernel, isOutOfOrder_of_permutations ?_⟩
    rw [calls]
    decide +kernel

end ImageRace

end VmFleet
