/-
This file lets a daemon serve requests on images at the same time. A listing is one section
under the lock. A removal has three steps: it takes the version out of the index under the
lock, deletes the directory outside of it, and lists. Between the first two the version is
out of the index and still on disk, and a scan in between lists it again. Where no scan
falls there, a version is taken at most once.
-/

import VmFleet.Proofs.Images.Requests

namespace VmFleet

open ImageStore

/-! ### Requests at the same time -/

/-- How far a request on images has come. -/
inductive ImagePhase
  | arrived
  /-- The version is out of the index, and its directory is not deleted yet. -/
  | taken (version : Version)
  | deleted
  | answered (reply : Except FleetError (List ChannelImages))
deriving DecidableEq

/-- A removal has taken its version and not deleted the directory yet. -/
def ImagePhase.isTaken : ImagePhase → Bool
  | .taken _ => true
  | _ => false

/-- A request on images, and how far it has come. -/
structure ImageCall where
  request : ImageRequest
  phase : ImagePhase
deriving DecidableEq

/-- A daemon with the requests on images that it serves at the same time. -/
structure ImageRace where
  daemon : Daemon
  calls : List ImageCall

namespace ImageCall

/-- A request that has just arrived. -/
def ofRequest (request : ImageRequest) : ImageCall :=
  ⟨request, .arrived⟩

/-- The next step of a request, if it is not answered. -/
def advance? (call : ImageCall) (daemon : Daemon) : Option (Daemon × ImageCall) :=
  match call with
  | ⟨.list, .arrived⟩ =>
    let (daemon, reply) := daemon.listImages
    some (daemon, ⟨.list, .answered reply⟩)
  | ⟨.remove channel version, .arrived⟩ =>
    match daemon.takeImage channel version with
    | (daemon, .ok taken) => some (daemon, ⟨.remove channel version, .taken taken⟩)
    | (daemon, .error error) => some (daemon, ⟨.remove channel version, .answered (.error error)⟩)
  | ⟨.remove channel version, .taken taken⟩ =>
    match daemon.deleteImage channel taken with
    | (daemon, .ok ()) => some (daemon, ⟨.remove channel version, .deleted⟩)
    | (daemon, .error error) => some (daemon, ⟨.remove channel version, .answered (.error error)⟩)
  | ⟨.remove channel version, .deleted⟩ =>
    let (daemon, reply) := daemon.listImages
    some (daemon, ⟨.remove channel version, .answered reply⟩)
  | _ => none

/-- The next step of a request scans the store. -/
def Scans (call : ImageCall) : Prop :=
  call = ⟨.list, .arrived⟩ ∨ ∃ channel version, call = ⟨.remove channel version, .deleted⟩

instance {call : ImageCall} : Decidable call.Scans :=
  match call with
  | ⟨.list, phase⟩ => decidable_of_iff (phase = .arrived) (by simp [Scans])
  | ⟨.remove _ _, phase⟩ => decidable_of_iff (phase = .deleted) (by simp [Scans])

/-- A removal of a version is between its take and its deletion. -/
def IsBetween (call : ImageCall) (channel version : String) : Prop :=
  call.request = .remove channel version ∧ call.phase.isTaken = true

instance {call : ImageCall} {channel version : String} :
    Decidable (call.IsBetween channel version) :=
  inferInstanceAs (Decidable (_ ∧ _))

/-- What a step of a request does. -/
inductive Advances (daemon : Daemon) : ImageCall → Daemon → ImageCall → Prop
  | scan {call : ImageCall} (scans : call.Scans) :
    Advances daemon call daemon.listImages.1 ⟨call.request, .answered daemon.listImages.2⟩
  | take {channel version : String} {after : Daemon} {taken : Version}
    (took : daemon.takeImage channel version = (after, .ok taken)) :
    Advances daemon ⟨.remove channel version, .arrived⟩ after ⟨.remove channel version, .taken taken⟩
  | refuse {channel version : String} {after : Daemon} {error : FleetError}
    (refused : daemon.takeImage channel version = (after, .error error)) :
    Advances daemon ⟨.remove channel version, .arrived⟩ after
      ⟨.remove channel version, .answered (.error error)⟩
  | delete {channel version : String} {taken : Version} {after : Daemon}
    (deleted : daemon.deleteImage channel taken = (after, .ok ())) :
    Advances daemon ⟨.remove channel version, .taken taken⟩ after ⟨.remove channel version, .deleted⟩
  | fail {channel version : String} {taken : Version} {after : Daemon} {error : FleetError}
    (failed : daemon.deleteImage channel taken = (after, .error error)) :
    Advances daemon ⟨.remove channel version, .taken taken⟩ after
      ⟨.remove channel version, .answered (.error error)⟩

theorem advance?_eq_some {call other : ImageCall} {daemon after : Daemon} :
    call.advance? daemon = some (after, other) ↔ Advances daemon call after other := by
  constructor
  · intro stepped
    unfold advance? at stepped
    split at stepped
    · obtain ⟨rfl, rfl⟩ := Prod.mk.inj (Option.some.inj stepped)
      exact .scan (.inl rfl)
    · split at stepped
      all_goals
        rename_i took
        obtain ⟨rfl, rfl⟩ := Prod.mk.inj (Option.some.inj stepped)
      · exact .take took
      · exact .refuse took
    · split at stepped
      all_goals
        rename_i deleted
        obtain ⟨rfl, rfl⟩ := Prod.mk.inj (Option.some.inj stepped)
      · exact .delete deleted
      · exact .fail deleted
    · rename_i channel version
      obtain ⟨rfl, rfl⟩ := Prod.mk.inj (Option.some.inj stepped)
      exact .scan (.inr ⟨channel, version, rfl⟩)
    · cases stepped
  · rintro (scans | took | refused | deleted | failed)
    · rcases scans with rfl | ⟨_, _, rfl⟩ <;> rfl
    · simp only [advance?, took]
    · simp only [advance?, refused]
    · simp only [advance?, deleted]
    · simp only [advance?, failed]

end ImageCall

namespace ImageRace

/-- Requests that have all just arrived. -/
def start (daemon : Daemon) (requests : List ImageRequest) : ImageRace :=
  ⟨daemon, requests.map .ofRequest⟩

/-- The request with a serial number makes its next step. -/
def advance? (race : ImageRace) (serial : Nat) : Option ImageRace :=
  (race.calls[serial]?).bind fun call =>
    (call.advance? race.daemon).map fun (daemon, next) => ⟨daemon, race.calls.set serial next⟩

/-- The requests make steps in the order of a schedule. -/
def run? (race : ImageRace) (schedule : List Nat) : Option ImageRace :=
  schedule.foldlM advance? race

/-- Every request has its answer. -/
def IsAnswered (race : ImageRace) : Prop :=
  ∀ call ∈ race.calls, ∃ reply, call.phase = .answered reply

/-- What a step of a race does. -/
theorem advances_of_advance? {race next : ImageRace} {serial : Nat}
    (stepped : race.advance? serial = some next) : ∃ call other,
      race.calls[serial]? = some call ∧ call.Advances race.daemon next.daemon other ∧
      next.calls = race.calls.set serial other := by
  obtain ⟨call, found, stepped⟩ := Option.bind_eq_some_iff.mp stepped
  obtain ⟨⟨after, other⟩, advanced, rfl⟩ := Option.map_eq_some_iff.mp stepped
  exact ⟨call, other, found, ImageCall.advance?_eq_some.mp advanced, rfl⟩

theorem advance?_of_advances {race : ImageRace} {after : Daemon} {serial : Nat}
    {call other : ImageCall} (found : race.calls[serial]? = some call)
    (advances : call.Advances race.daemon after other) :
    race.advance? serial = some ⟨after, race.calls.set serial other⟩ := by
  unfold advance?
  rw [found, Option.bind_some, ImageCall.advance?_eq_some.mpr advances]
  rfl

/-- After a step of one request the others are where they were. -/
theorem getElem?_set_cases {calls : List ImageCall} {serial place : Nat} {call other : ImageCall}
    (found : (calls.set serial call)[place]? = some other) :
    place = serial ∧ other = call ∨ place ≠ serial ∧ calls[place]? = some other := by
  rw [List.getElem?_set] at found
  split at found
  · rename_i same
    split at found
    · exact .inl ⟨same.symm, (Option.some.inj found).symm⟩
    · cases found
  · rename_i different
    exact .inr ⟨Ne.symm different, found⟩

/-- What goes for the request that made a step and for all the others goes for all. -/
theorem forall_mem_set {calls : List ImageCall} {serial : Nat} {call : ImageCall}
    {Good : ImageCall → Prop} (here : Good call) (others : ∀ other ∈ calls, Good other) :
    ∀ other ∈ calls.set serial call, Good other := by
  intro other member
  rcases List.mem_or_eq_of_mem_set member with before | rfl
  · exact others other before
  · exact here

/-! ### What an interleaving keeps -/

/-- A removal that has taken its version can delete the directory, if it does not stick. -/
def CanDelete (store : ImageStore) (tree : Tree) (call : ImageCall) : Prop :=
  ∀ channel version taken, call = ⟨.remove channel version, .taken taken⟩ →
    taken.render = version ∧ channel ∈ store.channels ∧
      (∃ parsed, Version.parse? version = some parsed) ∧ store.Deletable tree channel version

/-- The daemon keeps to version directories, and every deletion to come is one of those. -/
structure KeepsTo (race : ImageRace) (store : ImageStore) (tree : Tree) : Prop where
  daemon : race.daemon.KeepsTo store tree
  between : ∀ call ∈ race.calls, CanDelete store race.daemon.tree call

/-- A removal took its version; it is under way or has had another answer than that there is
no such image. -/
def HasTaken (call : ImageCall) (channel version : String) : Prop :=
  call.request = .remove channel version ∧ call.phase ≠ .arrived ∧
    call.phase ≠ .answered (.error (.imageNotFound channel version))

/-- A version was taken at most once. Since then it is not listed, and its directory is gone
unless it is just about to be deleted. -/
structure TakesOnce (race : ImageRace) (store : ImageStore) (channel version : String) : Prop where
  once : ∀ (first second : Nat) (one other : ImageCall), race.calls[first]? = some one →
    HasTaken one channel version → race.calls[second]? = some other →
      HasTaken other channel version → first = second
  unlisted : ∀ call ∈ race.calls, HasTaken call channel version →
    ¬ race.daemon.shared.media.Lists channel version
  gone : ∀ call ∈ race.calls, HasTaken call channel version →
    call.IsBetween channel version ∨ store.Lacks race.daemon.tree channel version

/-- Whenever a request scans the store, no removal that is of concern is between its take and
its deletion. -/
def Undisturbed (Concerns : ImageRequest → Prop) (race : ImageRace) : List Nat → Prop
  | [] => True
  | serial :: schedule =>
    (∀ call ∈ race.calls[serial]?, call.Scans →
      ∀ other ∈ race.calls, Concerns other.request → other.phase.isTaken = false) ∧
    ∀ next ∈ race.advance? serial, next.Undisturbed Concerns schedule

instance decidableUndisturbed (Concerns : ImageRequest → Prop) [DecidablePred Concerns] :
    (race : ImageRace) → (schedule : List Nat) → Decidable (race.Undisturbed Concerns schedule)
  | _, [] => .isTrue trivial
  | race, serial :: schedule =>
    have (next : ImageRace) : Decidable (next.Undisturbed Concerns schedule) :=
      decidableUndisturbed Concerns next schedule
    inferInstanceAs (Decidable ((∀ call ∈ race.calls[serial]?, call.Scans →
      ∀ other ∈ race.calls, Concerns other.request → other.phase.isTaken = false) ∧
      ∀ next ∈ race.advance? serial, next.Undisturbed Concerns schedule))

variable {store : ImageStore} {tree : Tree} {race next : ImageRace} {serial : Nat}

theorem CanDelete.clears {left : Tree} {call : ImageCall} (can : CanDelete store tree call)
    (clears : store.Clears tree left) : CanDelete store left call := by
  intro channel version taken same
  obtain ⟨spelling, member, spelt, deletable⟩ := can channel version taken same
  exact ⟨spelling, member, spelt, clears.deletable deletable⟩

theorem canDelete_of_answered (store : ImageStore) (tree : Tree) (request : ImageRequest)
    (reply : Except FleetError (List ChannelImages)) :
    CanDelete store tree ⟨request, .answered reply⟩ :=
  fun _ _ _ same => by cases congrArg ImageCall.phase same

section Configured

variable (configured : store.IsConfigured) (sound : tree.IsSound)

include configured sound

/-- A step keeps to version directories. -/
theorem KeepsTo.advance (keeps : race.KeepsTo store tree)
    (stepped : race.advance? serial = some next) :
    next.KeepsTo store tree ∧ store.Clears race.daemon.tree next.daemon.tree := by
  obtain ⟨call, other, found, advances, calls⟩ := advances_of_advance? stepped
  obtain ⟨daemon, between⟩ := keeps
  have can := between call (List.mem_of_getElem? found)
  -- the calls can go on wherever no more than version directories are gone
  suffices here : next.daemon.KeepsTo store tree ∧
      store.Clears race.daemon.tree next.daemon.tree ∧ CanDelete store next.daemon.tree other by
    obtain ⟨kept, clears, goesOn⟩ := here
    refine ⟨⟨kept, ?_⟩, clears⟩
    rw [calls]
    exact forall_mem_set goesOn fun other member => (between other member).clears clears
  obtain ⟨after, left⟩ := next
  simp only at advances ⊢
  have scanning := daemon.listImages_cases configured sound
  rcases advances with scans | took | refused | deleted | failed
  · exact ⟨daemon.listImages configured sound, scanning.1, canDelete_of_answered _ _ _ _⟩
  · obtain ⟨listed, same, rfl⟩ := Daemon.takeImage_eq_ok took
    refine ⟨daemon.unlisting _ _, clears_self _ _, ?_⟩
    rintro _ _ _ ⟨⟩
    exact ⟨same, listed.parse daemon.indexes⟩
  · obtain ⟨-, rfl, -⟩ := Daemon.takeImage_eq_error refused
    exact ⟨daemon, clears_self _ _, canDelete_of_answered _ _ _ _⟩
  all_goals obtain ⟨rfl, member, spelt, deletable⟩ := can _ _ _ rfl
  all_goals have ends := daemon.deleteImage_ends configured member spelt deletable
  · obtain ⟨kept, clears, -⟩ := daemon.deleting configured member spelt deletable
    rcases ends with gone | ⟨error, cut, stuck, -⟩
    · obtain ⟨rfl, -⟩ := Prod.mk.inj (gone.symm.trans deleted)
      exact ⟨kept, clears, fun _ _ _ same => by cases same⟩
    · cases stuck.symm.trans deleted
  · rcases ends with gone | ⟨error, cut, stuck, clears, -⟩
    · cases gone.symm.trans failed
    · obtain ⟨rfl, -⟩ := Prod.mk.inj (stuck.symm.trans failed)
      exact ⟨daemon.of_clears clears, clears, canDelete_of_answered _ _ _ _⟩

end Configured

section TakesOnce

variable {channel version : String}

/-- A version is taken by one that listed it. -/
theorem hasTaken_of_advances {daemon after : Daemon} {call other : ImageCall}
    (advances : call.Advances daemon after other) (has : HasTaken other channel version) :
    HasTaken call channel version ∨ daemon.shared.media.Lists channel version ∧
      after = daemon.unlisting channel version ∧ other.IsBetween channel version := by
  obtain ⟨asked, begun, answered⟩ := has
  rcases advances with scans | took | refused | deleted | failed
  · rcases scans with rfl | ⟨_, _, rfl⟩
    · cases asked
    · exact .inl ⟨asked, nofun, nofun⟩
  · obtain ⟨listed, -, rfl⟩ := Daemon.takeImage_eq_ok took
    cases asked
    exact .inr ⟨listed, rfl, rfl, rfl⟩
  · obtain ⟨-, -, rfl⟩ := Daemon.takeImage_eq_error refused
    cases asked
    exact absurd rfl answered
  · exact .inl ⟨asked, nofun, nofun⟩
  · exact .inl ⟨asked, nofun, nofun⟩

variable (configured : store.IsConfigured) (sound : tree.IsSound) (yields : tree.held = [])

include configured sound

/-- What is not listed is not listed by a step, unless a scan finds it. -/
theorem not_lists_of_advances {daemon after : Daemon} {call other : ImageCall}
    (keeps : daemon.KeepsTo store tree) (advances : call.Advances daemon after other)
    (unlisted : ¬ daemon.shared.media.Lists channel version)
    (lacks : call.Scans → store.Lacks daemon.tree channel version) :
    ¬ after.shared.media.Lists channel version := by
  rcases advances with scans | took | refused | deleted | failed
  · exact keeps.not_lists_listImages configured sound unlisted (lacks scans)
  · obtain ⟨-, -, rfl⟩ := Daemon.takeImage_eq_ok took
    exact fun listed => unlisted listed.of_dropping
  · obtain ⟨-, rfl, -⟩ := Daemon.takeImage_eq_error refused
    exact unlisted
  · obtain rfl := congrArg Prod.fst deleted
    exact unlisted
  · obtain rfl := congrArg Prod.fst failed
    exact unlisted

include yields

/-- When a removal goes on from its take, the directory is gone. -/
theorem lacks_of_advances {daemon after : Daemon} {call other : ImageCall}
    (keeps : daemon.KeepsTo store tree) (can : CanDelete store daemon.tree call)
    (advances : call.Advances daemon after other) (has : HasTaken call channel version)
    (gone : call.IsBetween channel version ∨ store.Lacks daemon.tree channel version) :
    store.Lacks after.tree channel version := by
  have scanning := keeps.listImages_cases configured sound
  rcases advances with scans | took | refused | deleted | failed
  · refine scanning.1.lacks (gone.resolve_left ?_)
    rintro ⟨-, between⟩
    rcases scans with rfl | ⟨_, _, rfl⟩ <;> cases between
  · exact absurd rfl has.2.1
  · exact absurd rfl has.2.1
  all_goals
    obtain ⟨rfl, member, spelt, deletable⟩ := can _ _ _ rfl
    cases has.1
    have lacks := (keeps.deleting configured member spelt deletable).2.2
    have none : daemon.tree.held = [] := keeps.clears.held.trans yields
    have gone := (keeps.deleteImage_ends configured member spelt deletable).resolve_right
      fun ⟨_, _, _, _, sticks⟩ => sticks fun place _ => Tree.holdsIn_of_nil none place
  · obtain ⟨rfl, -⟩ := Prod.mk.inj (gone.symm.trans deleted)
    exact lacks
  · cases gone.symm.trans failed

omit configured sound yields in
/-- A listed version is taken, so no removal has taken it before. -/
theorem TakesOnce.taking (takes : race.TakesOnce store channel version)
    {There : String → String → Prop} (indexes : store.Indexes There race.daemon.shared.media)
    (listed : race.daemon.shared.media.Lists channel version) {other : ImageCall}
    (between : other.IsBetween channel version) :
    (⟨race.daemon.unlisting channel version, race.calls.set serial other⟩ : ImageRace).TakesOnce
      store channel version := by
  have none : ∀ one ∈ race.calls, ¬ HasTaken one channel version :=
    fun one inside hasOne => takes.unlisted one inside hasOne listed
  have only : ∀ (place : Nat) (one : ImageCall), (race.calls.set serial other)[place]? = some one →
      HasTaken one channel version → place = serial := by
    intro place one there hasOne
    rcases getElem?_set_cases there with ⟨same, -⟩ | ⟨-, before⟩
    · exact same
    · exact absurd hasOne (none one (List.mem_of_getElem? before))
  refine ⟨fun first second one another there hasOne thereToo hasOther => ?_, fun _ _ _ => ?_, ?_⟩
  · exact (only first one there hasOne).trans (only second another thereToo hasOther).symm
  · exact indexes.not_lists_dropping channel version
  · refine forall_mem_set (fun _ => .inl between) fun one inside hasOne => ?_
    exact absurd hasOne (none one inside)

/-- A scan that falls between no take and deletion of a version leaves what is said of it. -/
theorem TakesOnce.advance (keeps : race.KeepsTo store tree)
    (takes : race.TakesOnce store channel version) (stepped : race.advance? serial = some next)
    (spared : ∀ call, race.calls[serial]? = some call → call.Scans →
      ∀ other ∈ race.calls, ¬ other.IsBetween channel version) :
    next.TakesOnce store channel version := by
  have clears := (keeps.advance configured sound stepped).2
  obtain ⟨call, other, found, advances, calls⟩ := advances_of_advance? stepped
  have member := List.mem_of_getElem? found
  obtain ⟨daemon, between⟩ := keeps
  obtain ⟨after, left⟩ := next
  obtain rfl : left = race.calls.set serial other := calls
  by_cases fresh : HasTaken other channel version ∧ ¬ HasTaken call channel version
  · obtain ⟨has, hadNot⟩ := fresh
    obtain ⟨listed, rfl, betweenNow⟩ := (hasTaken_of_advances advances has).resolve_left hadNot
    exact takes.taking daemon.indexes listed betweenNow
  · have back : HasTaken other channel version → HasTaken call channel version :=
      fun has => not_not.mp fun hadNot => fresh ⟨has, hadNot⟩
    have before : ∀ (place : Nat) (one : ImageCall),
        (race.calls.set serial other)[place]? = some one → HasTaken one channel version →
          ∃ same, race.calls[place]? = some same ∧ HasTaken same channel version := by
      intro place one there hasOne
      rcases getElem?_set_cases there with ⟨rfl, rfl⟩ | ⟨-, there⟩
      · exact ⟨call, found, back hasOne⟩
      · exact ⟨one, there, hasOne⟩
    refine ⟨fun first second one another there hasOne thereToo hasOther => ?_,
      fun one inside hasOne => ?_, ?_⟩
    · obtain ⟨one, there, hasOne⟩ := before first one there hasOne
      obtain ⟨another, thereToo, hasOther⟩ := before second another thereToo hasOther
      exact takes.once first second one another there hasOne thereToo hasOther
    · obtain ⟨place, there⟩ := List.mem_iff_getElem?.mp inside
      obtain ⟨one, there, hasOne⟩ := before place one there hasOne
      have inside := List.mem_of_getElem? there
      refine not_lists_of_advances configured sound daemon advances
        (takes.unlisted one inside hasOne) fun scans => ?_
      exact (takes.gone one inside hasOne).resolve_left (spared call found scans one inside)
    · refine forall_mem_set (fun has => .inr ?_) fun one inside hasOne => ?_
      · exact lacks_of_advances configured sound yields daemon (between call member) advances (back has)
          (takes.gone call member (back has))
      · exact (takes.gone one inside hasOne).imp_right clears.lacks

/-- A schedule in which no scan falls between a take and a deletion of a version leaves what is
said of it. -/
theorem TakesOnce.run {last : ImageRace} {schedule : List Nat}
    (keeps : race.KeepsTo store tree) (takes : race.TakesOnce store channel version)
    (ran : race.run? schedule = some last)
    (undisturbed : race.Undisturbed (· = .remove channel version) schedule) :
    last.TakesOnce store channel version := by
  induction schedule generalizing race with
  | nil =>
    obtain rfl := Option.some.inj ran
    exact takes
  | cons serial schedule inductionHypothesis =>
    obtain ⟨next, stepped, ran⟩ := Option.bind_eq_some_iff.mp ran
    obtain ⟨spared, later⟩ := undisturbed
    refine inductionHypothesis (keeps.advance configured sound stepped).1
      (takes.advance configured sound yields keeps stepped fun call found scans other member between => ?_)
      ran (later next stepped)
    cases (spared call found scans other member between.1).symm.trans between.2

omit configured sound yields

theorem keepsTo_start (setup : Setup) (tree : Tree) (requests : List ImageRequest) :
    (start (.initial setup tree) requests).KeepsTo setup.store tree := by
  refine ⟨Daemon.keepsTo_initial setup tree, fun call member => ?_⟩
  obtain ⟨request, -, rfl⟩ := List.mem_map.mp member
  exact fun _ _ _ same => by cases congrArg ImageCall.phase same

theorem takesOnce_start (daemon : Daemon) (requests : List ImageRequest) :
    (start daemon requests).TakesOnce store channel version := by
  have none : ∀ call ∈ (start daemon requests).calls, ¬ HasTaken call channel version := by
    intro call member has
    obtain ⟨request, -, rfl⟩ := List.mem_map.mp member
    exact has.2.1 rfl
  exact ⟨fun _ _ one _ found has _ _ => absurd has (none one (List.mem_of_getElem? found)),
    fun call member has => absurd has (none call member),
    fun call member has => absurd has (none call member)⟩

/-- Of two removals of a version, one is told that there is no such image. -/
theorem TakesOnce.refused (takes : race.TakesOnce store channel version) {first second : Nat}
    (different : first ≠ second) {reply another : Except FleetError (List ChannelImages)}
    (one : race.calls[first]? = some ⟨.remove channel version, .answered reply⟩)
    (other : race.calls[second]? = some ⟨.remove channel version, .answered another⟩) :
    reply = .error (.imageNotFound channel version) ∨
      another = .error (.imageNotFound channel version) := by
  by_contra neither
  obtain ⟨here, there⟩ := not_or.mp neither
  exact different (takes.once first second _ _
    one ⟨rfl, nofun, fun same => here (ImagePhase.answered.inj same)⟩
    other ⟨rfl, nofun, fun same => there (ImagePhase.answered.inj same)⟩)

end TakesOnce

end ImageRace

end VmFleet
