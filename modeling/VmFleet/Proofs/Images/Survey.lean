/-
This file proves that a scan does what a look at the tree it starts from says. Every
entry of a channel has a verdict there: it is kept, discarded or passed over. The scan
judges while it deletes, so a verdict is reached in a tree that lacks what was discarded
before. Where the discarded directories are nobody else's, each verdict is still the one
of the first look, and the scan leaves the first tree without them.
-/

import VmFleet.Images.Store
import VmFleet.Proofs.Files.Deletion
import VmFleet.Proofs.Files.Joined
import VmFleet.Proofs.Keyed
import VmFleet.Proofs.Release.Order
import VmFleet.Proofs.Release.Spelling

namespace VmFleet.ImageStore

open TreeRequest

variable {store : ImageStore} {tree : Tree} {directory : Path} {location : Location}
  {name : FileName}

/-! ### Verdicts -/

/-- The version directory that an entry is, with the instant of its last change. -/
def versionAt? (tree : Tree) (location : Location) (name : FileName) :
    Option (Timestamp × Version) :=
  match tree.find? (name :: location), versionOf? name with
  | some (.directory modified), some version => some (modified, version)
  | _, _ => none

/-- Whether a version directory passes both checks. -/
def passes (store : ImageStore) (tree : Tree) (directory : Path) (name : FileName)
    (modified : Timestamp) : Bool :=
  store.staleBefore.isBefore modified && store.isComplete tree (directory.join ⟨name⟩)

/-- The version that the verdict on an entry keeps. -/
def kept? (store : ImageStore) (tree : Tree) (directory : Path) (location : Location)
    (name : FileName) : Option Version :=
  (versionAt? tree location name).bind fun (modified, version) =>
    if store.passes tree directory name modified then some version else none

/-- Whether the verdict on an entry is to take it away. -/
def discards (store : ImageStore) (tree : Tree) (directory : Path) (location : Location)
    (name : FileName) : Bool :=
  (versionAt? tree location name).any fun (modified, _) =>
    !store.passes tree directory name modified

theorem versionAt?_eq_some {modified : Timestamp} {version : Version} :
    versionAt? tree location name = some (modified, version) ↔
      tree.find? (name :: location) = some (.directory modified) ∧
        versionOf? name = some version := by
  unfold versionAt?
  split <;> simp_all

theorem kept?_eq_some {version : Version} :
    store.kept? tree directory location name = some version ↔ ∃ modified,
      versionAt? tree location name = some (modified, version) ∧
        store.passes tree directory name modified = true := by
  unfold kept?
  simp [Option.bind_eq_some_iff]

/-- What is kept has the text of its version for a name. -/
theorem eq_octetsOf_of_kept? {version : Version}
    (kept : store.kept? tree directory location name = some version) :
    name = Text.octetsOf version.render := by
  obtain ⟨modified, found, -⟩ := kept?_eq_some.mp kept
  exact (eq_octetsOf_of_versionOf? (versionAt?_eq_some.mp found).2).1

theorem discards_iff :
    store.discards tree directory location name = true ↔ ∃ modified version,
      versionAt? tree location name = some (modified, version) ∧
        store.passes tree directory name modified = false := by
  unfold discards
  simp [Option.any_eq_true]

/-- An entry that is discarded is not kept. -/
theorem kept?_of_discards (gone : store.discards tree directory location name = true) :
    store.kept? tree directory location name = none := by
  obtain ⟨modified, version, found, fails⟩ := discards_iff.mp gone
  simp [kept?, found, fails]

/-- A version directory that is not gone is one still, changed when it lost something. -/
theorem versionAt?_without {places : List Location}
    (kept : Tree.isUnder places (name :: location) = false) :
    versionAt? (tree.without places) location name =
      (versionAt? tree location name).map fun (modified, version) =>
        (if name :: location ∈ places.map List.tail then tree.now else modified, version) := by
  unfold versionAt?
  rw [Tree.find?_without kept]
  rcases tree.find? (name :: location) with _ | (_ | _ | _ | _) <;>
    cases versionOf? name <;> rfl

/-- What is complete was complete when there was more. -/
theorem isComplete_of_without {places : List Location} (proper : [] ∉ places)
    (complete : store.isComplete (tree.without places) directory = true) :
    store.isComplete tree directory = true := by
  unfold isComplete at *
  refine List.all_eq_true.mpr fun artifact member => ?_
  exact Tree.isFile_of_without proper (List.all_eq_true.mp complete artifact member)

/-- What judging an entry does. -/
theorem run_judge : (store.judge directory location name).run tree =
    match versionAt? tree location name with
    | some (modified, version) =>
      if store.passes tree directory name modified then (.ok (some version), tree)
      else
        let path := directory.join ⟨name⟩
        (FileRequest.doing ("removing " ++ path.display) (removeAll [] path) >>= fun _ =>
          pure none : FileRequest (Option Version)).run tree
    | none => (.ok none, tree) := by
  unfold judge versionAt?
  rw [run_bind, run_inspect]
  simp only
  rcases tree.find? (name :: location) with _ | (_ | modified | _ | _)
  · rfl
  · rfl
  · cases versionOf? name with
    | none => rfl
    | some version =>
      simp only
      rw [run_bind, run_inspect]
      by_cases fine : store.passes tree directory name modified = true
      · rw [if_pos fine]
        unfold passes at fine
        simp only [fine, if_true]
        rfl
      · rw [if_neg fine]
        unfold passes at fine
        simp only [fine]
        rfl
  · rfl
  · rfl

/-- Judging an entry that is not discarded gives what is kept of it. -/
theorem run_judge_of_stays (stays : store.discards tree directory location name = false) :
    (store.judge directory location name).run tree =
      (.ok (store.kept? tree directory location name), tree) := by
  rw [run_judge]
  unfold discards kept? at *
  cases found : versionAt? tree location name with
  | none => rfl
  | some candidate =>
    obtain ⟨modified, version⟩ := candidate
    rw [found] at stays
    have fine : store.passes tree directory name modified = true := by simpa using stays
    simp [fine]

/-- Judging an entry that is discarded takes away what its path leads to, or sticks there. -/
theorem run_judge_of_discards (gone : store.discards tree directory location name = true)
    (leads : tree.resolve ⟨false, false⟩ [] (directory.join ⟨name⟩) = .ok (name :: location)) :
    (store.judge directory location name).run tree = (.ok none, tree.prune (name :: location)) ∨
      ∃ error cause left, (store.judge directory location name).run tree = (.error error, left) ∧
        tree.Sticks (name :: location) cause left := by
  obtain ⟨modified, version, found, fails⟩ := discards_iff.mp gone
  rw [run_judge, found]
  simp only [fails, Bool.false_eq_true, if_false]
  rw [run_bind, FileRequest.doing, run_explain]
  rcases removes_removeAll leads (versionAt?_eq_some.mp found).1 with
    removed | ⟨cause, left, stuck, sticks⟩
  · rw [removed]
    exact .inl rfl
  · rw [stuck]
    exact .inr ⟨_, cause, left, rfl, sticks⟩

/-- Judging an entry that is discarded fails if its path leads nowhere. -/
theorem run_judge_of_refused (gone : store.discards tree directory location name = true)
    {cause : Cause} (leads : tree.resolve ⟨false, false⟩ [] (directory.join ⟨name⟩) = .error cause) :
    ∃ error, (store.judge directory location name).run tree = (.error error, tree) := by
  obtain ⟨modified, version, found, fails⟩ := discards_iff.mp gone
  rw [run_judge, found]
  simp only [fails, Bool.false_eq_true, if_false]
  rw [run_bind, FileRequest.doing, run_explain, run_removeAll_of_error leads]
  exact ⟨_, rfl⟩

/-! ### The first look -/

/-- The directory of a channel. -/
def channelDirectory (store : ImageStore) (channel : String) : Path :=
  store.root.child channel

/-- What stands in a channel: where its directory is, and the names in it. -/
def shelf (store : ImageStore) (tree : Tree) (channel : String) :
    Except Cause (Location × List FileName) :=
  tree.listing [] (store.channelDirectory channel)

/-- The versions that are kept in a channel. -/
def keptIn (store : ImageStore) (tree : Tree) (channel : String) : List Version :=
  match store.shelf tree channel with
  | .ok (location, names) =>
    names.filterMap (store.kept? tree (store.channelDirectory channel) location)
  | .error _ => []

/-- The places that are to be taken away in a channel. -/
def spoiledIn (store : ImageStore) (tree : Tree) (channel : String) : List Location :=
  match store.shelf tree channel with
  | .ok (location, names) =>
    (names.filter (store.discards tree (store.channelDirectory channel) location)).map
      (· :: location)
  | .error _ => []

/-- The places that are to be taken away in the whole store. -/
def spoiled (store : ImageStore) (tree : Tree) : List Location :=
  store.channels.flatMap (store.spoiledIn tree)

/-- The tree without the version directories that fail a check. -/
def swept (store : ImageStore) (tree : Tree) : Tree :=
  tree.without (store.spoiled tree)

/-- The index of what is kept. -/
def survey (store : ImageStore) (tree : Tree) : ImageIndex :=
  store.channels.foldl
    (fun index channel => index.insert channel (Version.ascending (store.keptIn tree channel)))
    Keyed.empty

/-- The discarded directories are nobody else's: without them every channel leads where it
led, and whatever is kept would be kept. -/
structure Undisturbed (store : ImageStore) (tree : Tree) : Prop where
  channels : ∀ channel ∈ store.channels,
    (store.swept tree).resolve ⟨true, false⟩ [] (store.channelDirectory channel) =
      tree.resolve ⟨true, false⟩ [] (store.channelDirectory channel)
  versions : ∀ channel ∈ store.channels, ∀ location names,
    store.shelf tree channel = .ok (location, names) → ∀ name ∈ names, ∀ version,
      store.kept? tree (store.channelDirectory channel) location name = some version →
      store.kept? (store.swept tree) (store.channelDirectory channel) location name = some version

/-- Whether the discarded directories are none that one channel leads through or needs. -/
def isUndisturbed (store : ImageStore) (tree : Tree) (channel : String) : Bool :=
  (store.swept tree).resolve ⟨true, false⟩ [] (store.channelDirectory channel) ==
      tree.resolve ⟨true, false⟩ [] (store.channelDirectory channel) &&
    match store.shelf tree channel with
    | .ok (location, names) => names.all fun name =>
      (store.kept? tree (store.channelDirectory channel) location name).all fun version =>
        store.kept? (store.swept tree) (store.channelDirectory channel) location name == some version
    | .error _ => true

theorem undisturbed_iff :
    store.Undisturbed tree ↔ ∀ channel ∈ store.channels, store.isUndisturbed tree channel = true := by
  constructor
  · rintro ⟨channels, versions⟩ channel member
    unfold isUndisturbed
    rw [channels channel member, beq_self_eq_true, Bool.true_and]
    cases shelf : store.shelf tree channel with
    | error cause => rfl
    | ok entries =>
      refine List.all_eq_true.mpr fun name entry => ?_
      refine (Option.all_eq_true _ _).mpr fun version kept => ?_
      exact beq_iff_eq.mpr (versions channel member _ _ shelf name entry version kept)
  · intro each
    have split := fun channel member => Bool.and_eq_true_iff.mp (each channel member)
    refine ⟨fun channel member => beq_iff_eq.mp (split channel member).1, ?_⟩
    intro channel member location names shelf name entry version kept
    have verdicts := (split channel member).2
    rw [shelf] at verdicts
    exact beq_iff_eq.mp ((Option.all_eq_true _ _).mp (List.all_eq_true.mp verdicts name entry)
      version kept)

instance : Decidable (store.Undisturbed tree) :=
  decidable_of_iff' _ undisturbed_iff

/-- The system can take an entry away by its path. -/
def Removable (directory : Path) (name : FileName) : Prop :=
  Tree.Accepts (directory.join ⟨name⟩) ∧ name.length ≤ Tree.nameLimit

/-- The system takes away the entries that are to be discarded and are not gone. -/
def Clearable (store : ImageStore) (tree : Tree) (gone : List Location) (channel : String)
    (location : Location) (names : List FileName) : Prop :=
  ∀ name ∈ names, store.discards tree (store.channelDirectory channel) location name = true →
    name :: location ∉ gone →
      Removable (store.channelDirectory channel) name ∧ tree.holdsIn (name :: location) = false

/-- A channel has a directory that can be read, or none. -/
def Readable (store : ImageStore) (tree : Tree) (channel : String) : Prop :=
  ∀ cause, store.shelf tree channel = .error cause → cause = .noEntry

/-- The system refuses nothing that the scan of a channel asks for when some places are gone
already. -/
structure Workable (store : ImageStore) (tree : Tree) (gone : List Location) (channel : String) :
    Prop where
  readable : store.Readable tree channel
  clearable : ∀ location names, store.shelf tree channel = .ok (location, names) →
    store.Clearable tree gone channel location names

theorem Workable.of_subset {gone others : List Location} {channel : String}
    (workable : store.Workable tree gone channel) (subset : gone ⊆ others) :
    store.Workable tree others channel :=
  ⟨workable.readable, fun location names shelf name entry discarded stays =>
    workable.clearable location names shelf name entry discarded fun before => stays (subset before)⟩

theorem shelf_eq_ok {channel : String} {names : List FileName} :
    store.shelf tree channel = .ok (location, names) ↔
      tree.resolve ⟨true, false⟩ [] (store.channelDirectory channel) = .ok location ∧
        tree.isDirectoryAt location = true ∧ tree.namesAt location = names := by
  unfold shelf Tree.listing
  rcases tree.resolve ⟨true, false⟩ [] (store.channelDirectory channel) with cause | leads
  · simp [bind, Except.bind]
  · simp only [bind, Except.bind, Except.ok.injEq]
    split
    · rename_i inside
      simp only [Except.ok.injEq, Prod.mk.injEq]
      constructor
      · rintro ⟨rfl, rfl⟩
        exact ⟨rfl, inside, rfl⟩
      · rintro ⟨rfl, -, rfl⟩
        exact ⟨rfl, rfl⟩
    · rename_i outside
      simp only [reduceCtorEq, false_iff]
      rintro ⟨rfl, inside, -⟩
      exact outside inside

theorem mem_spoiledIn {channel : String} {place : Location} :
    place ∈ store.spoiledIn tree channel ↔ ∃ location names name,
      store.shelf tree channel = .ok (location, names) ∧ name ∈ names ∧
        store.discards tree (store.channelDirectory channel) location name = true ∧
        place = name :: location := by
  unfold spoiledIn
  rcases store.shelf tree channel with cause | ⟨location, names⟩
  · simp
  · simp only [List.mem_map, List.mem_filter, Except.ok.injEq, Prod.mk.injEq]
    constructor
    · rintro ⟨name, ⟨member, gone⟩, rfl⟩
      exact ⟨location, names, name, ⟨rfl, rfl⟩, member, gone, rfl⟩
    · rintro ⟨_, _, name, ⟨rfl, rfl⟩, member, gone, rfl⟩
      exact ⟨name, ⟨member, gone⟩, rfl⟩

theorem mem_spoiled {place : Location} : place ∈ store.spoiled tree ↔
    ∃ channel ∈ store.channels, place ∈ store.spoiledIn tree channel :=
  List.mem_flatMap

theorem nil_not_mem_spoiled (store : ImageStore) (tree : Tree) : [] ∉ store.spoiled tree := by
  intro member
  obtain ⟨channel, -, inside⟩ := mem_spoiled.mp member
  obtain ⟨location, names, name, -, -, -, same⟩ := mem_spoiledIn.mp inside
  cases same

end VmFleet.ImageStore
