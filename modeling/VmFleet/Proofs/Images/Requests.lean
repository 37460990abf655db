/-
This file proves what the requests on images do to the index that the daemon keeps and to
the store, one request after the other. The index may say less than the store has, but each
version that it lists is a directory still or is missing altogether, so to remove it works
unless the system holds on to something in it, and the scan that follows lists it no more.
-/

import VmFleet.Proofs.Config.Validation
import VmFleet.Proofs.Images.Clearing
import VmFleet.Supervision.Daemon

namespace VmFleet

/-! ### Versions in an index -/

namespace ImageIndex

/-- A channel has a version that is written like this. -/
def Lists (index : ImageIndex) (channel text : String) : Prop :=
  ∃ versions, index.find? channel = some versions ∧ ∃ version ∈ versions, version.render = text

/-- How the versions of a channel are written. -/
def texts (index : ImageIndex) (channel : String) : List String :=
  ((index.find? channel).getD []).map Version.render

theorem mem_texts {index : ImageIndex} {channel text : String} :
    text ∈ index.texts channel ↔ index.Lists channel text := by
  unfold texts Lists
  cases index.find? channel <;> simp

instance {index : ImageIndex} {channel text : String} : Decidable (index.Lists channel text) :=
  decidable_of_iff (text ∈ index.texts channel) mem_texts

/-- An index without a version, if the channel lists it. -/
def dropping (index : ImageIndex) (channel text : String) : ImageIndex :=
  match index.find? channel with
  | none => index
  | some versions => index.insert channel (versions.eraseP (·.render == text))

variable {index : ImageIndex} {channel text : String}

theorem texts_dropping (other : String) :
    (index.dropping channel text).texts other =
      if channel = other then (index.texts channel).erase text else index.texts other := by
  unfold dropping texts
  cases found : index.find? channel with
  | none =>
    by_cases same : channel = other
    · subst same
      simp [found]
    · simp [same]
  | some versions =>
    rw [Keyed.find?_insert]
    by_cases same : channel = other
    · simp only [if_pos same, Option.getD_some, List.erase_eq_eraseP, List.eraseP_map]
      exact congrArg _ (congrArg (List.eraseP · versions) (funext fun version => Bool.beq_comm))
    · simp only [if_neg same]

theorem take_of_not_lists (unlisted : ¬ index.Lists channel text) :
    index.take channel text = .error (.imageNotFound channel text) := by
  unfold take
  cases found : index.find? channel with
  | none => rfl
  | some versions =>
    have none : versions.find? (·.render == text) = none :=
      List.find?_eq_none.mpr fun version member same =>
        unlisted ⟨versions, found, version, member, beq_iff_eq.mp same⟩
    simp only [none]
    rfl

theorem take_of_lists (listed : index.Lists channel text) :
    ∃ taken : Version, taken.render = text ∧
      index.take channel text = .ok (taken, index.dropping channel text) := by
  obtain ⟨versions, found, version, member, same⟩ := listed
  unfold take dropping
  rw [found]
  cases first : versions.find? (·.render == text) with
  | none => exact absurd (beq_iff_eq.mpr same) (List.find?_eq_none.mp first version member)
  | some taken =>
    have written := List.find?_some first
    exact ⟨taken, beq_iff_eq.mp written, by simp only [first]⟩

/-- What an index lists is spelt as a version. -/
theorem Lists.parse {There : String → String → Prop} {store : ImageStore}
    (listed : index.Lists channel text) (indexes : store.Indexes There index) :
    channel ∈ store.channels ∧ (∃ version, Version.parse? text = some version) ∧
      There channel text := by
  obtain ⟨versions, found, version, member, rfl⟩ := listed
  exact ⟨indexes.channels channel versions found,
    ⟨version, indexes.spelt channel versions found version member⟩,
    indexes.there channel versions found version member⟩

end ImageIndex

/-- An index keeps what is said of it when a version is taken out. -/
theorem ImageStore.Indexes.dropping {There : String → String → Prop} {store : ImageStore}
    {index : ImageIndex} (indexes : store.Indexes There index) (channel text : String) :
    store.Indexes There (index.dropping channel text) := by
  unfold ImageIndex.dropping
  cases found : index.find? channel with
  | none => exact indexes
  | some versions =>
    refine indexes.insert (indexes.channels channel versions found)
      ((indexes.ascending channel versions found).sublist List.eraseP_sublist) ?_
    intro version kept
    have listed := List.mem_of_mem_eraseP kept
    exact ⟨indexes.spelt channel versions found version listed,
      indexes.there channel versions found version listed⟩

/-- No version of a channel is written twice. -/
theorem ImageStore.Indexes.nodup_texts {There : String → String → Prop} {store : ImageStore}
    {index : ImageIndex} (indexes : store.Indexes There index) (channel : String) :
    (index.texts channel).Nodup := by
  unfold ImageIndex.texts
  cases found : index.find? channel with
  | none => exact List.nodup_nil
  | some versions =>
    refine List.Nodup.map_on (fun left inLeft right inRight same => ?_) ?_
    · have read := indexes.spelt channel versions found left inLeft
      rw [same, indexes.spelt channel versions found right inRight] at read
      exact (Option.some.inj read).symm
    · refine (indexes.ascending channel versions found).imp ?_
      rintro version _ before rfl
      have swapped := Version.order_swap version version
      rw [before] at swapped
      cases swapped

/-- What is listed when a version was taken out was listed before. -/
theorem ImageIndex.Lists.of_dropping {index : ImageIndex} {channel text other spelling : String}
    (listed : (index.dropping channel text).Lists other spelling) : index.Lists other spelling := by
  rw [← mem_texts, texts_dropping] at listed
  rw [← mem_texts]
  split at listed
  · rename_i same
    exact same ▸ List.mem_of_mem_erase listed
  · exact listed

/-- What was taken out is listed no more. -/
theorem ImageStore.Indexes.not_lists_dropping {There : String → String → Prop} {store : ImageStore}
    {index : ImageIndex} (indexes : store.Indexes There index) (channel text : String) :
    ¬ (index.dropping channel text).Lists channel text := by
  rw [← ImageIndex.mem_texts, ImageIndex.texts_dropping, if_pos rfl]
  exact (indexes.nodup_texts channel).not_mem_erase

/-! ### Valid configurations -/

namespace Config

variable {config : Config}

/-- The store of a configuration that breaks no rule is configured. -/
theorem isConfigured_of_validate {environment : Environment} {store : ImageStore}
    (valid : config.validate = .ok ()) (stored : config.store? environment = some store) :
    store.IsConfigured := by
  have keeps := validate_eq_ok_iff.mp valid
  have channels := keeps.channels
  have artifacts := keeps.artifacts
  obtain ⟨cutoff, -, rfl⟩ := Option.map_eq_some_iff.mp stored
  unfold checkChannels at channels
  unfold checkArtifacts at artifacts
  split at channels
  · cases channels
  · split at channels
    · cases channels
    · rename_i named
      split at artifacts
      · cases artifacts
      · rename_i nonempty
        split at artifacts
        · cases artifacts
        · rename_i plain
          refine ⟨fun channel member => ?_, fun artifact member => ?_, fun empty => ?_⟩
          · simpa using List.find?_eq_none.mp named channel member
          · simpa using List.find?_eq_none.mp plain artifact member
          · exact nonempty (List.isEmpty_iff.mpr empty)

end Config

/-! ### Requests on images -/

/-- A request on the images of a store. -/
inductive ImageRequest
  | list
  | remove (channel version : String)
deriving DecidableEq

namespace Daemon

open ImageStore

/-- The daemon after a request on images, and the reply. -/
def serve (daemon : Daemon) : ImageRequest → Daemon × Except FleetError (List ChannelImages)
  | .list => daemon.listImages
  | .remove channel version => daemon.removeImage channel version

/-- The daemon after requests on images, one at a time. -/
def serveAll (daemon : Daemon) (requests : List ImageRequest) : Daemon :=
  requests.foldl (fun daemon request => (daemon.serve request).1) daemon

/-- The daemon with a version taken out of the index. -/
def unlisting (daemon : Daemon) (channel text : String) : Daemon :=
  { daemon with
    shared := { daemon.shared with media := daemon.shared.media.dropping channel text } }

/-- The daemon with a version taken off the disk. -/
def deleting (daemon : Daemon) (channel text : String) : Daemon :=
  { daemon with
    tree := lacking daemon.tree (daemon.setup.store.versionDirectory channel text) }

/-- Since there was a tree, version directories of a store were taken away and nothing else,
and whatever the index lists can be deleted. -/
structure KeepsTo (daemon : Daemon) (store : ImageStore) (tree : Tree) : Prop where
  same : daemon.setup.store = store
  clears : store.Clears tree daemon.tree
  indexes : store.Indexes (store.Deletable daemon.tree) daemon.shared.media

variable {daemon : Daemon} {store : ImageStore} {tree : Tree} {channel version : String}

theorem takeImage_of_not_lists (unlisted : ¬ daemon.shared.media.Lists channel version) :
    daemon.takeImage channel version = (daemon, .error (.imageNotFound channel version)) := by
  unfold takeImage
  rw [ImageIndex.take_of_not_lists unlisted]

theorem takeImage_of_lists (listed : daemon.shared.media.Lists channel version) :
    ∃ taken : Version, taken.render = version ∧
      daemon.takeImage channel version = (daemon.unlisting channel version, .ok taken) := by
  obtain ⟨taken, same, took⟩ := ImageIndex.take_of_lists listed
  refine ⟨taken, same, ?_⟩
  unfold takeImage
  rw [took]
  rfl

theorem takeImage_eq_ok {after : Daemon} {taken : Version}
    (took : daemon.takeImage channel version = (after, .ok taken)) :
    daemon.shared.media.Lists channel version ∧ taken.render = version ∧
      after = daemon.unlisting channel version := by
  by_cases listed : daemon.shared.media.Lists channel version
  · obtain ⟨other, same, takes⟩ := takeImage_of_lists listed
    obtain ⟨rfl, answer⟩ := Prod.mk.inj (takes.symm.trans took)
    exact ⟨listed, Except.ok.inj answer ▸ same, rfl⟩
  · cases (takeImage_of_not_lists listed).symm.trans took

theorem takeImage_eq_error {after : Daemon} {error : FleetError}
    (refused : daemon.takeImage channel version = (after, .error error)) :
    ¬ daemon.shared.media.Lists channel version ∧ after = daemon ∧
      error = .imageNotFound channel version := by
  by_cases listed : daemon.shared.media.Lists channel version
  · obtain ⟨taken, -, takes⟩ := takeImage_of_lists listed
    cases takes.symm.trans refused
  · obtain ⟨rfl, answer⟩ := Prod.mk.inj ((takeImage_of_not_lists listed).symm.trans refused)
    exact ⟨listed, rfl, (Except.error.inj answer).symm⟩

theorem deleteImage_of_run {taken : Version} {outcome : Except FleetError Unit} {left : Tree}
    (ran : (daemon.setup.store.deleteVersion channel taken).run daemon.tree = (outcome, left)) :
    daemon.deleteImage channel taken = ({ daemon with tree := left }, outcome) := by
  unfold deleteImage
  rw [ran]

/-- A deletion goes through, or it sticks in the directory of the version. -/
theorem deleteImage_cases {taken : Version}
    (deletable : daemon.setup.store.Deletable daemon.tree channel taken.render) :
    daemon.deleteImage channel taken = (daemon.deleting channel taken.render, .ok ()) ∨
      ∃ cause left, daemon.deleteImage channel taken = ({ daemon with tree := left },
          .error (.io ("removing " ++
            (daemon.setup.store.versionDirectory channel taken.render).display) cause)) ∧
        daemon.setup.store.SticksIn daemon.tree channel taken.render cause left := by
  rcases run_deleteVersion_cases deletable with ran | ⟨cause, left, ran, sticks⟩
  · exact .inl (deleteImage_of_run ran)
  · exact .inr ⟨cause, left, deleteImage_of_run ran, sticks⟩

theorem deleteImage_of_deletable {taken : Version}
    (deletable : daemon.setup.store.Deletable daemon.tree channel taken.render)
    (yields : daemon.setup.store.Yields daemon.tree channel taken.render) :
    daemon.deleteImage channel taken = (daemon.deleting channel taken.render, .ok ()) :=
  deleteImage_of_run (run_deleteVersion deletable yields)

theorem removeImage_of_not_lists (unlisted : ¬ daemon.shared.media.Lists channel version) :
    daemon.removeImage channel version = (daemon, .error (.imageNotFound channel version)) := by
  unfold removeImage
  rw [takeImage_of_not_lists unlisted]

theorem setup_listImages (daemon : Daemon) : daemon.listImages.1.setup = daemon.setup := by
  unfold listImages
  rcases daemon.setup.store.scan.run daemon.tree with ⟨error | index, left⟩ <;> rfl

section KeepsTo

variable (keeps : daemon.KeepsTo store tree)

include keeps

/-- A listed version is deleted, whether or not its directory is still there, unless it sticks. -/
theorem KeepsTo.deleteImage {taken : Version}
    (listed : daemon.shared.media.Lists channel taken.render)
    (yields : store.Yields daemon.tree channel taken.render) :
    (daemon.unlisting channel taken.render).deleteImage channel taken =
      ((daemon.unlisting channel taken.render).deleting channel taken.render, .ok ()) := by
  obtain ⟨-, -, deletable⟩ := listed.parse keeps.indexes
  rw [← keeps.same] at deletable yields
  exact deleteImage_of_deletable deletable yields

/-- The removal of a listed version comes down to a listing without it. -/
theorem KeepsTo.removeImage_of_lists (listed : daemon.shared.media.Lists channel version)
    (yields : store.Yields daemon.tree channel version) :
    daemon.removeImage channel version =
      ((daemon.unlisting channel version).deleting channel version).listImages := by
  obtain ⟨taken, rfl, took⟩ := takeImage_of_lists listed
  unfold removeImage
  rw [took]
  simp only [keeps.deleteImage listed yields]

/-- Otherwise it sticks in the directory. -/
theorem KeepsTo.removeImage_cases (listed : daemon.shared.media.Lists channel version) :
    daemon.removeImage channel version =
        ((daemon.unlisting channel version).deleting channel version).listImages ∨
      ∃ error cause left, daemon.removeImage channel version =
          ({ daemon.unlisting channel version with tree := left }, .error error) ∧
        store.SticksIn daemon.tree channel version cause left := by
  obtain ⟨-, -, deletable⟩ := listed.parse keeps.indexes
  obtain ⟨taken, rfl, took⟩ := takeImage_of_lists listed
  rw [← keeps.same] at deletable ⊢
  unfold removeImage
  rw [took]
  rcases @deleteImage_cases (daemon.unlisting channel taken.render) channel taken deletable with
    deleted | ⟨cause, left, stuck, sticks⟩
  · exact .inl (by simp only [deleted])
  · exact .inr ⟨_, cause, left, by simp only [stuck]; rfl, sticks⟩

/-- When no more than version directories go, the daemon keeps to what it kept to. -/
theorem KeepsTo.of_clears {left : Tree} (clears : store.Clears daemon.tree left) :
    { daemon with tree := left }.KeepsTo store tree :=
  ⟨keeps.same, keeps.clears.trans clears, keeps.indexes.mono clears.deletable⟩

theorem KeepsTo.unlisting (channel text : String) :
    (daemon.unlisting channel text).KeepsTo store tree :=
  ⟨keeps.same, keeps.clears, keeps.indexes.dropping channel text⟩

variable (configured : store.IsConfigured)

include configured

/-- When a version is deleted, no more than its directory goes. -/
theorem KeepsTo.deleting (member : channel ∈ store.channels)
    (spelt : ∃ parsed, Version.parse? version = some parsed)
    (deletable : store.Deletable daemon.tree channel version) :
    (daemon.deleting channel version).KeepsTo store tree ∧
      store.Clears daemon.tree (daemon.deleting channel version).tree ∧
      store.Lacks (daemon.deleting channel version).tree channel version := by
  obtain ⟨parsed, spelt⟩ := spelt
  obtain ⟨clears, lacks⟩ := clears_lacking configured member spelt deletable
  have tree : (daemon.deleting channel version).tree =
      lacking daemon.tree (store.versionDirectory channel version) := by
    rw [← keeps.same]
    rfl
  rw [← tree] at clears lacks
  exact ⟨keeps.of_clears clears, clears, lacks⟩

/-- A deletion takes the directory away, or no more than a part of it. -/
theorem KeepsTo.deleteImage_ends {taken : Version} (member : channel ∈ store.channels)
    (spelt : ∃ parsed, Version.parse? taken.render = some parsed)
    (deletable : store.Deletable daemon.tree channel taken.render) :
    daemon.deleteImage channel taken = (daemon.deleting channel taken.render, .ok ()) ∨
      ∃ error left, daemon.deleteImage channel taken = ({ daemon with tree := left }, .error error) ∧
        store.Clears daemon.tree left ∧ ¬ store.Yields daemon.tree channel taken.render := by
  obtain ⟨parsed, spelt⟩ := spelt
  have same := keeps.same
  subst same
  rcases deleteImage_cases deletable with deleted | ⟨cause, left, stuck, sticks⟩
  · exact .inl deleted
  · exact .inr ⟨_, left, stuck, sticks.clears configured member spelt, sticks.not_yields⟩

/-- When a listed version is taken away, no more than its directory goes. -/
theorem KeepsTo.dropping (listed : daemon.shared.media.Lists channel version) :
    ((daemon.unlisting channel version).deleting channel version).KeepsTo store tree ∧
      store.Lacks ((daemon.unlisting channel version).deleting channel version).tree channel
        version := by
  obtain ⟨member, spelt, deletable⟩ := listed.parse keeps.indexes
  obtain ⟨kept, -, lacks⟩ :=
    (keeps.unlisting channel version).deleting configured member spelt deletable
  exact ⟨kept, lacks⟩

variable (sound : tree.IsSound)

include sound

/-- A listing keeps the index that there is, or lists what had a directory when it began. -/
theorem KeepsTo.listImages_cases : store.Clears daemon.tree daemon.listImages.1.tree ∧
    (daemon.listImages.1.shared.media = daemon.shared.media ∨
      store.Indexes (store.Stands daemon.tree) daemon.listImages.1.shared.media) := by
  obtain ⟨clears, lists⟩ :=
    keeps_scan configured (keeps.clears.isSound sound) daemon.tree (clears_self store daemon.tree)
  unfold Daemon.listImages
  rw [keeps.same]
  rcases run : store.scan.run daemon.tree with ⟨error | index, left⟩
  · rw [run] at clears
    exact ⟨clears, .inl rfl⟩
  · rw [run] at clears lists
    exact ⟨clears, .inr (lists index rfl)⟩

theorem KeepsTo.listImages : daemon.listImages.1.KeepsTo store tree := by
  have same : daemon.listImages.1.setup.store = store := by
    rw [setup_listImages, keeps.same]
  obtain ⟨clears, kept | scanned⟩ := keeps.listImages_cases configured sound
  · refine ⟨same, keeps.clears.trans clears, ?_⟩
    rw [kept]
    exact keeps.indexes.mono clears.deletable
  · exact ⟨same, keeps.clears.trans clears,
      scanned.mono fun stands => clears.deletable (.inl stands)⟩

/-- A listing does not list again what is not there. -/
theorem KeepsTo.not_lists_listImages (unlisted : ¬ daemon.shared.media.Lists channel version)
    (lacks : store.Lacks daemon.tree channel version) :
    ¬ daemon.listImages.1.shared.media.Lists channel version := by
  obtain ⟨-, kept | scanned⟩ := keeps.listImages_cases configured sound
  · rwa [kept]
  · exact fun listed => not_lacks_of_stands (listed.parse scanned).2.2 lacks

theorem KeepsTo.serve (request : ImageRequest) : (daemon.serve request).1.KeepsTo store tree := by
  cases request with
  | list => exact keeps.listImages configured sound
  | remove channel version =>
    by_cases listed : daemon.shared.media.Lists channel version
    · show (daemon.removeImage channel version).1.KeepsTo store tree
      rcases keeps.removeImage_cases listed with
        removed | ⟨error, cause, left, stuck, sticks⟩
      · rw [removed]
        exact (keeps.dropping configured listed).1.listImages configured sound
      · obtain ⟨member, ⟨parsed, spelt⟩, -⟩ := listed.parse keeps.indexes
        rw [stuck]
        exact (keeps.unlisting channel version).of_clears (sticks.clears configured member spelt)
    · show (daemon.removeImage channel version).1.KeepsTo store tree
      rw [removeImage_of_not_lists listed]
      exact keeps

theorem KeepsTo.serveAll (requests : List ImageRequest) :
    (daemon.serveAll requests).KeepsTo store tree := by
  induction requests generalizing daemon with
  | nil => exact keeps
  | cons request requests inductionHypothesis =>
    exact inductionHypothesis (keeps.serve configured sound request)

end KeepsTo

/-- What an index says of a store that nothing was taken away from. -/
theorem keepsTo_initial (setup : Setup) (tree : Tree) :
    (initial setup tree).KeepsTo setup.store tree :=
  ⟨rfl, clears_self _ _, indexes_empty _ _⟩

/-! ### One version at a time -/

/-- A scan that succeeds is what a listing keeps and answers. -/
theorem listImages_of_ok {index : ImageIndex} {left : Tree}
    (run : daemon.setup.store.scan.run daemon.tree = (.ok index, left)) :
    daemon.listImages =
      ({ daemon with tree := left, shared := { daemon.shared with media := index } },
        .ok index.listing) := by
  unfold Daemon.listImages
  rw [run]

/-- A listing that succeeds is that of a scan. -/
theorem listImages_eq_ok {after : Daemon} {reply : List ChannelImages}
    (listed : daemon.listImages = (after, .ok reply)) :
    ∃ index left, daemon.setup.store.scan.run daemon.tree = (.ok index, left) ∧
      after = { daemon with tree := left, shared := { daemon.shared with media := index } } ∧
      reply = index.listing := by
  rcases run : daemon.setup.store.scan.run daemon.tree with ⟨error | index, left⟩
  · unfold Daemon.listImages at listed
    rw [run] at listed
    cases listed
  · rw [listImages_of_ok run] at listed
    obtain ⟨rfl, answered⟩ := Prod.mk.inj listed
    exact ⟨index, left, rfl, rfl, (Except.ok.inj answered).symm⟩

/-- A listing that fails is a scan that fails. It leaves the index as it was. -/
theorem listImages_eq_error {after : Daemon} {error : FleetError}
    (failed : daemon.listImages = (after, .error error)) :
    ∃ left, daemon.setup.store.scan.run daemon.tree = (.error error, left) ∧
      after = { daemon with tree := left } := by
  unfold Daemon.listImages at failed
  rcases run : daemon.setup.store.scan.run daemon.tree with ⟨cause | index, left⟩
  · rw [run] at failed
    obtain ⟨rfl, same⟩ := Prod.mk.inj failed
    exact ⟨left, by rw [Except.error.inj same], rfl⟩
  · rw [run] at failed
    cases failed

/-- What a removal that succeeded has done. -/
theorem KeepsTo.removed (keeps : daemon.KeepsTo store tree) (configured : store.IsConfigured)
    (sound : tree.IsSound) {after : Daemon} {reply : List ChannelImages}
    (replied : daemon.removeImage channel version = (after, .ok reply)) :
    daemon.shared.media.Lists channel version ∧
      after.tree.entry [] (store.versionDirectory channel version) = .error .noEntry ∧
      ¬ after.shared.media.Lists channel version ∧
      store.scan.run (lacking daemon.tree (store.versionDirectory channel version)) =
        (.ok after.shared.media, after.tree) ∧
      reply = after.shared.media.listing := by
  by_cases listed : daemon.shared.media.Lists channel version
  · obtain ⟨dropped, lacks⟩ := keeps.dropping configured listed
    rcases keeps.removeImage_cases listed with answer | ⟨error, cause, left, stuck, -⟩
    · have clears := (dropped.listImages_cases configured sound).1
      have unlisted := dropped.not_lists_listImages configured sound
        (keeps.indexes.not_lists_dropping channel version) lacks
      rw [← answer, replied] at clears unlisted
      obtain ⟨index, left, run, rfl, rfl⟩ := listImages_eq_ok (answer.symm.trans replied)
      have same := keeps.same
      subst same
      exact ⟨listed, (clears.lacks lacks).entry, unlisted, run, rfl⟩
    · cases stuck.symm.trans replied
  · cases (removeImage_of_not_lists listed).symm.trans replied

/-- A configuration of two channels. -/
def twoChannelConfig : Config :=
  { Config.standard with
    storeRoot := some "/images"
    channels := some ["alpha", "beta"]
    artifacts := some ["vmlinuz", "initrd"]
    staleBefore := 1 }

/-- A daemon with two channels. -/
def twoChannelSetup : Setup where
  settings := twoChannelConfig.settings ⟨none, none, none, none⟩ 0
  store := twoChannels
  runner := Path.ofString twoChannelConfig.runner
  macs := MacSource.ofOctets

theorem store?_twoChannelConfig :
    twoChannelConfig.store? ⟨none, none, none, none⟩ = some twoChannels := by
  have cutoff : twoChannelConfig.cutoff? = some ⟨1, 0⟩ := by decide +kernel
  unfold Config.store?
  rw [cutoff]
  rfl

/-- A tree with one image in each channel. -/
def oneImageEach : Tree :=
  written
    [(["images"], .directory ⟨5, 0⟩), (["images", "alpha"], .directory ⟨5, 0⟩),
      (["images", "alpha", "1.0.0"], .directory ⟨5, 0⟩),
      (["images", "alpha", "1.0.0", "vmlinuz"], .file []),
      (["images", "alpha", "1.0.0", "initrd"], .file []),
      (["images", "beta"], .directory ⟨5, 0⟩), (["images", "beta", "2.0.0"], .directory ⟨5, 0⟩),
      (["images", "beta", "2.0.0", "vmlinuz"], .file []),
      (["images", "beta", "2.0.0", "initrd"], .file [])]

/-- The daemon of these images after a listing. -/
def listedEach : Daemon :=
  (initial twoChannelSetup oneImageEach).serveAll [.list]

end Daemon

end VmFleet
