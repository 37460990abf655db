/-
This file proves that removing the old images of a channel keeps exactly its newest one. A
client takes the old versions from a listing and has them removed one after the other, and
each removal ends in a scan. Where no link lies in the store, a removal takes one version
out of the list of its channel and changes nothing else that is listed, so the versions go
in their order and the last one is left. The path of the root must not lead through a
version that goes: if it does, all the channels go with it.
-/

import VmFleet.Client.Listing
import VmFleet.Proofs.Images.Requests
import VmFleet.Proofs.Images.Thinning

namespace VmFleet

open VmFleet.Text

/-! ### Listings -/

namespace Client

/-- The versions that a client finds under a channel are those of the index. -/
theorem versionsOf?_listing (index : ImageIndex) (channel : String) :
    versionsOf? index.listing channel = (index.find? channel).map (·.map Version.render) := by
  unfold versionsOf? ImageIndex.listing Keyed.find?
  rw [List.find?_map, Option.map_map, Option.map_map]
  rfl

theorem getD_versionsOf?_listing (index : ImageIndex) (channel : String) :
    (versionsOf? index.listing channel).getD [] = index.texts channel := by
  rw [versionsOf?_listing]
  unfold ImageIndex.texts
  cases index.find? channel <;> rfl

/-- The old versions of a channel and the latest one are all of its versions. -/
theorem oldVersions_append_latestVersion (images : List ChannelImages) (channel : String) :
    oldVersions images channel ++ (latestVersion images channel).toList =
      (versionsOf? images channel).getD [] := by
  unfold oldVersions latestVersion
  cases versionsOf? images channel with
  | none => rfl
  | some versions =>
    show versions.dropLast ++ versions.getLast?.toList = versions
    cases versions using List.reverseRecOn <;> simp

end Client

namespace ImageStore

variable {store : ImageStore} {tree : Tree} {channel text : String}

/-- The places of some versions of a channel. -/
def placesOf (store : ImageStore) (tree : Tree) (channel : String) (texts : List String) :
    List Location :=
  texts.filterMap fun text =>
    (tree.resolve ⟨false, false⟩ [] (store.versionDirectory channel text)).toOption

theorem mem_placesOf {texts : List String} {place : Location} :
    place ∈ store.placesOf tree channel texts ↔ ∃ text ∈ texts,
      tree.resolve ⟨false, false⟩ [] (store.versionDirectory channel text) = .ok place := by
  unfold placesOf
  rw [List.mem_filterMap]
  refine exists_congr fun text => and_congr_right fun _ => ?_
  cases tree.resolve ⟨false, false⟩ [] (store.versionDirectory channel text) <;>
    simp [Except.toOption]

/-- When a version is taken away, its text is taken out of the list of its channel. -/
theorem IsClean.texts_survey_without (clean : store.IsClean tree) (configured : store.IsConfigured)
    (member : channel ∈ store.channels) {root : Location}
    (reached : tree.namesLead [] store.root = .ok root)
    (anchored : store.IsAnchored tree [octetsOf text :: octetsOf channel :: root])
    (other : String) :
    (store.survey (tree.without [octetsOf text :: octetsOf channel :: root])).texts other =
      if channel = other then ((store.survey tree).texts channel).erase text
      else (store.survey tree).texts other := by
  have within : store.InChannels tree [octetsOf text :: octetsOf channel :: root] :=
    List.forall_mem_singleton.mpr ⟨channel, member, root, _, reached, rfl⟩
  -- a channel of the store keeps what is not the version
  have left : ∀ other ∈ store.channels,
      store.keptIn (tree.without [octetsOf text :: octetsOf channel :: root]) other =
        (store.keptIn tree other).filter fun version =>
          !(decide (channel = other) && version.render == text) := by
    intro other among
    cases shelf : store.shelf tree other with
    | error cause =>
      unfold keptIn
      rw [anchored.shelf within.nil_not_mem among, shelf]
      rfl
    | ok entries =>
      obtain ⟨location, names⟩ := entries
      obtain ⟨root', reached', rfl⟩ := clean.free.exists_root
        (configured.channelNames other among) (shelf_eq_ok.mp shelf).1
      obtain rfl := Except.ok.inj (reached.symm.trans reached')
      rw [clean.free.keptIn_without configured clean.sound within anchored
        (clean.spoiled_subset _) among shelf]
      refine List.filter_congr fun version _ => ?_
      have same : octetsOf version.render :: octetsOf other :: root =
          octetsOf text :: octetsOf channel :: root ↔ channel = other ∧ version.render = text := by
        constructor
        · intro same
          obtain ⟨texts, outer⟩ := List.cons.inj same
          exact ⟨(octetsOf_injective (List.cons.inj outer).1).symm, octetsOf_injective texts⟩
        · rintro ⟨rfl, rfl⟩
          rfl
      rw [Bool.eq_iff_iff]
      simp [same]
  have once := (clean.indexes configured).nodup_texts other
  unfold ImageIndex.texts at once ⊢
  rw [find?_survey] at once
  by_cases among : other ∈ store.channels
  · rw [if_pos among] at once
    simp only [find?_survey, if_pos among, if_pos member, left other among,
      Version.ascending_filter, Option.getD_some] at once ⊢
    split
    · rename_i same
      subst same
      rw [once.erase_eq_filter, List.filter_map]
      simp [Function.comp_def, bne]
    · simp_all
  · have apart : channel ≠ other := fun same => among (same ▸ member)
    simp only [find?_survey, if_neg among, if_neg apart]

end ImageStore

namespace Daemon

open ImageStore

/-- Remove versions of a channel one after the other, as long as that works. Gives the listing
of the last removal, or the one that there was. -/
def removeEach (daemon : Daemon) (channel : String) (listing : List ChannelImages) :
    List String → Except FleetError (Daemon × List ChannelImages)
  | [] => .ok (daemon, listing)
  | version :: versions =>
    match daemon.removeImage channel version with
    | (after, .ok reply) => after.removeEach channel reply versions
    | (_, .error error) => .error error

/-- The store is clean, and the index says what is in it. -/
structure IsCurrent (daemon : Daemon) : Prop where
  clean : daemon.setup.store.IsClean daemon.tree
  media : daemon.shared.media = daemon.setup.store.survey daemon.tree

variable {daemon : Daemon} {channel text : String} {gone : List Location}

/-- A listing changes nothing then. -/
theorem IsCurrent.listImages (current : daemon.IsCurrent)
    (configured : daemon.setup.store.IsConfigured) :
    daemon.listImages = (daemon, .ok daemon.shared.media.listing) := by
  have run := current.clean.run_scan configured
  rw [← current.media] at run
  exact listImages_of_ok run

theorem IsCurrent.keepsTo (current : daemon.IsCurrent)
    (configured : daemon.setup.store.IsConfigured) :
    daemon.KeepsTo daemon.setup.store daemon.tree := by
  refine ⟨rfl, clears_self _ _, ?_⟩
  rw [current.media]
  exact (current.clean.indexes configured).mono .inl

/-- The client is shown a list for each channel of the store. -/
theorem IsCurrent.versionsOf? (current : daemon.IsCurrent) (other : String) :
    Client.versionsOf? daemon.shared.media.listing other =
      if other ∈ daemon.setup.store.channels then some (daemon.shared.media.texts other)
      else none := by
  rw [Client.versionsOf?_listing]
  unfold ImageIndex.texts
  rw [current.media, find?_survey]
  split <;> rfl

/-- The removal of a listed version works and takes it out of the list of its channel. -/
theorem IsCurrent.removeImage (current : daemon.IsCurrent)
    (configured : daemon.setup.store.IsConfigured)
    (listed : daemon.shared.media.Lists channel text)
    (anchored : daemon.setup.store.IsAnchored daemon.tree gone) (proper : [] ∉ gone)
    (places : ∀ place, daemon.tree.resolve ⟨false, false⟩ []
      (daemon.setup.store.versionDirectory channel text) = .ok place → place ∈ gone)
    (yields : daemon.setup.store.Yields daemon.tree channel text) :
    ∃ after place, daemon.removeImage channel text = (after, .ok after.shared.media.listing) ∧
      after.IsCurrent ∧ after.setup = daemon.setup ∧ place ∈ gone ∧
      after.tree = daemon.tree.without [place] ∧
      ∀ other, after.shared.media.texts other =
        if channel = other then (daemon.shared.media.texts channel).erase text
        else daemon.shared.media.texts other := by
  have indexes := current.clean.indexes configured
  rw [← current.media] at indexes
  obtain ⟨member, ⟨version, spelt⟩, place, leads, -⟩ := listed.parse indexes
  obtain ⟨root, reached, rfl⟩ :=
    current.clean.free.exists_place configured member spelt leads
  have subset : [octetsOf text :: octetsOf channel :: root] ⊆ gone :=
    List.cons_subset.mpr ⟨places _ leads, List.nil_subset _⟩
  have step := anchored.of_subset proper subset
  have within : daemon.setup.store.InChannels daemon.tree
      [octetsOf text :: octetsOf channel :: root] :=
    List.forall_mem_singleton.mpr ⟨channel, member, root, _, reached, rfl⟩
  have clean := isClean_without configured current.clean.sound current.clean.free within step
    (current.clean.spoiled_subset _) current.clean.readable
  have left : ((daemon.unlisting channel text).deleting channel text).tree =
      daemon.tree.without [octetsOf text :: octetsOf channel :: root] := by
    show lacking daemon.tree (daemon.setup.store.versionDirectory channel text) = _
    unfold lacking
    rw [leads]
    exact Tree.prune_eq_without _ _
  have run := clean.run_scan configured
  rw [← left] at run
  have answer := (current.keepsTo configured).removeImage_of_lists listed yields
  rw [listImages_of_ok run] at answer
  refine ⟨_, _, answer, ⟨left.symm ▸ clean, left.symm ▸ rfl⟩, rfl, places _ leads, left, ?_⟩
  intro other
  rw [current.media]
  simp only [left]
  exact current.clean.texts_survey_without configured member reached step other

/-- The first versions of a channel are removed one after the other, and the others are left. -/
theorem IsCurrent.removeEach (olds rest : List String) (current : daemon.IsCurrent)
    (configured : daemon.setup.store.IsConfigured)
    (anchored : daemon.setup.store.IsAnchored daemon.tree gone) (proper : [] ∉ gone)
    (places : ∀ text ∈ olds, ∀ place, daemon.tree.resolve ⟨false, false⟩ []
      (daemon.setup.store.versionDirectory channel text) = .ok place → place ∈ gone)
    (yields : ∀ text ∈ olds, daemon.setup.store.Yields daemon.tree channel text)
    (texts : daemon.shared.media.texts channel = olds ++ rest) :
    ∃ last, daemon.removeEach channel daemon.shared.media.listing olds =
        .ok (last, last.shared.media.listing) ∧
      last.IsCurrent ∧ last.setup = daemon.setup ∧ last.shared.media.texts channel = rest ∧
      ∀ other, other ≠ channel →
        last.shared.media.texts other = daemon.shared.media.texts other := by
  induction olds generalizing daemon with
  | nil => exact ⟨daemon, rfl, current, rfl, texts, fun _ _ => rfl⟩
  | cons text olds inductionHypothesis =>
    have listed : daemon.shared.media.Lists channel text :=
      ImageIndex.mem_texts.mp (texts ▸ List.mem_cons_self)
    obtain ⟨after, place, removed, next, same, among, tree, shown⟩ :=
      current.removeImage configured listed anchored proper (places text List.mem_cons_self)
        (yields text List.mem_cons_self)
    have subset : [place] ⊆ gone := List.cons_subset.mpr ⟨among, List.nil_subset _⟩
    have sooner : ∀ path location, after.tree.resolve ⟨false, false⟩ [] path = .ok location →
        daemon.tree.resolve ⟨false, false⟩ [] path = .ok location := by
      intro path location leads
      rw [tree] at leads
      exact ((Tree.resolve_without daemon.tree ⟨false, false⟩ rfl
        (fun inside => proper (subset inside)) path).eq_of_ok leads).1
    obtain ⟨last, ran, final, setup, kept, others⟩ := inductionHypothesis next (same ▸ configured)
      (by rw [same, tree]; exact anchored.without proper subset)
      (fun other member location leads => places other (List.mem_cons_of_mem _ member) location
        (sooner _ location (same ▸ leads)))
      (fun other member => by
        rw [same, tree]
        exact (yields other (List.mem_cons_of_mem _ member)).without fun inside =>
          proper (subset inside))
      (by rw [shown, if_pos rfl, texts, List.cons_append, List.erase_cons_head])
    refine ⟨last, ?_, final, setup.trans same, kept, fun other apart => ?_⟩
    · unfold Daemon.removeEach
      rw [removed]
      exact ran
    · rw [others other apart, shown, if_neg (Ne.symm apart)]

/-- Of the versions that are listed for a channel the last one is the latest. -/
theorem IsCurrent.latest (current : daemon.IsCurrent)
    (configured : daemon.setup.store.IsConfigured) {latest : String}
    (newest : Client.latestVersion daemon.shared.media.listing channel = some latest) :
    ∃ newest, Version.parse? latest = some newest ∧
      ∀ text ∈ daemon.shared.media.texts channel, text = latest ∨
        ∃ version, Version.parse? text = some version ∧ Version.order version newest = .lt := by
  have indexes := current.clean.indexes configured
  rw [← current.media] at indexes
  unfold Client.latestVersion at newest
  rw [Client.versionsOf?_listing] at newest
  unfold ImageIndex.texts
  cases found : daemon.shared.media.find? channel with
  | none =>
    rw [found] at newest
    cases newest
  | some versions =>
    have ascending := indexes.ascending channel versions found
    have spelt := indexes.spelt channel versions found
    rw [found] at newest
    cases versions using List.reverseRecOn with
    | nil => cases newest
    | append_singleton front last =>
      have same : last.render = latest := by simpa using newest
      refine ⟨last, same ▸ spelt last (by simp), fun text member => ?_⟩
      obtain ⟨version, among, rfl⟩ := List.mem_map.mp member
      rcases List.mem_append.mp among with earlier | here
      · refine .inr ⟨version, spelt version among, ?_⟩
        exact (List.pairwise_append.mp ascending).2.2 version earlier last (by simp)
      · rw [List.mem_singleton.mp here]
        exact .inl same

/-! ### The result -/

/-- To remove the old images of a channel keeps exactly its newest one. Whatever a daemon did
before, let a listing succeed on a store without links, whose channels would lead where they
lead without the directories that the scan discards and without the old versions of one channel,
and let the system hold on to nothing in those. Then the old versions of this channel are removed
one after the other and each removal works. The last reply lists the latest version of the channel
and nothing else, or nothing if there was none, and what it was for every other channel; and
another listing says the same and changes nothing. The latest version follows every other one that
was listed, and the old versions with the latest one behind them are the whole list of the
channel. -/
theorem removeEach_keeps_latest {config : Config} {environment : Environment}
    {daemon after : Daemon} {reply : List ChannelImages} (valid : config.validate = .ok ())
    (stored : config.store? environment = some daemon.setup.store)
    (sound : daemon.tree.IsSound) (free : daemon.setup.store.IsLinkFree daemon.tree)
    (listed : daemon.listImages = (after, .ok reply)) (channel : String)
    (anchored : daemon.setup.store.IsAnchored daemon.tree
      (daemon.setup.store.spoiled daemon.tree ++
        daemon.setup.store.placesOf daemon.tree channel (Client.oldVersions reply channel)))
    (yields : ∀ text ∈ Client.oldVersions reply channel,
      daemon.setup.store.Yields daemon.tree channel text) :
    (∃ last final,
      after.removeEach channel reply (Client.oldVersions reply channel) = .ok (last, final) ∧
        Client.versionsOf? final channel = (Client.versionsOf? reply channel).map
          (fun _ => (Client.latestVersion reply channel).toList) ∧
        (∀ other, other ≠ channel →
          Client.versionsOf? final other = Client.versionsOf? reply other) ∧
        last.listImages = (last, .ok final)) ∧
      (∀ latest, Client.latestVersion reply channel = some latest →
        ∃ newest, Version.parse? latest = some newest ∧
          ∀ text ∈ (Client.versionsOf? reply channel).getD [], text = latest ∨
            ∃ version, Version.parse? text = some version ∧
              Version.order version newest = .lt) ∧
      Client.oldVersions reply channel ++ (Client.latestVersion reply channel).toList =
        (Client.versionsOf? reply channel).getD [] := by
  have configured := Config.isConfigured_of_validate valid stored
  obtain ⟨index, left, run, rfl, rfl⟩ := listImages_eq_ok listed
  -- what was listed is spelt as a version, so its place is below the root
  have indexes : daemon.setup.store.Indexes (daemon.setup.store.Stands daemon.tree) index := by
    have lists := (keeps_scan configured sound daemon.tree (clears_self _ _)).2
    rw [run] at lists
    exact lists index rfl
  have shown := Client.oldVersions_append_latestVersion index.listing channel
  have texts := shown.trans (Client.getD_versionsOf?_listing index channel)
  have proper : [] ∉ daemon.setup.store.spoiled daemon.tree ++
      daemon.setup.store.placesOf daemon.tree channel (Client.oldVersions index.listing channel) := by
    refine List.not_mem_append (nil_not_mem_spoiled _ _) fun member => ?_
    obtain ⟨text, old, leads⟩ := mem_placesOf.mp member
    have lists : index.Lists channel text :=
      ImageIndex.mem_texts.mp (texts ▸ List.mem_append_left _ old)
    obtain ⟨among, ⟨version, spelt⟩, -⟩ := lists.parse indexes
    obtain ⟨root, -, same⟩ := free.exists_place configured among spelt leads
    cases same
  -- the scan leaves a clean store
  obtain ⟨swept, clean, media⟩ := free.scan_cleans configured sound
    (anchored.of_subset proper (List.subset_append_left _ _)) (congrArg Prod.fst run)
  obtain rfl := (Prod.mk.inj (run.symm.trans swept)).2
  have current : IsCurrent { daemon with
      tree := daemon.setup.store.swept daemon.tree
      shared := { daemon.shared with media := index } } := ⟨clean, media⟩
  obtain ⟨last, removed, final, same, rest, others⟩ := current.removeEach
    (Client.oldVersions index.listing channel)
    (Client.latestVersion index.listing channel).toList configured
    (anchored.without proper (List.subset_append_left _ _)) proper
    (fun text old place leads => List.mem_append_right _ (mem_placesOf.mpr ⟨text, old,
      ((Tree.resolve_without daemon.tree ⟨false, false⟩ rfl (nil_not_mem_spoiled _ _) _).eq_of_ok
        leads).1⟩))
    (fun text old => (yields text old).without (nil_not_mem_spoiled _ _)) texts.symm
  refine ⟨⟨last, _, removed, ?_, fun other apart => ?_, final.listImages (same ▸ configured)⟩,
    fun latest newest => ?_, shown⟩
  · rw [final.versionsOf?, same, rest]
    have before := current.versionsOf? channel
    simp only at before
    rw [before]
    split <;> rfl
  · have before := current.versionsOf? other
    simp only at before
    rw [final.versionsOf?, same, others other apart, before]
  · rw [Client.getD_versionsOf?_listing]
    exact current.latest configured newest

/-- A tree with three images in one channel, one of them without its files, and one image in the
other channel. -/
def threeImages : Tree :=
  written
    [(["images"], .directory ⟨5, 0⟩), (["images", "alpha"], .directory ⟨5, 0⟩),
      (["images", "alpha", "1.10.0"], .directory ⟨5, 0⟩),
      (["images", "alpha", "1.10.0", "vmlinuz"], .file []),
      (["images", "alpha", "1.10.0", "initrd"], .file []),
      (["images", "alpha", "1.9.0"], .directory ⟨5, 0⟩),
      (["images", "alpha", "1.9.0", "vmlinuz"], .file []),
      (["images", "alpha", "1.9.0", "initrd"], .file []),
      (["images", "alpha", "1.10.0-rc.1"], .directory ⟨5, 0⟩),
      (["images", "alpha", "1.10.0-rc.1", "vmlinuz"], .file []),
      (["images", "alpha", "1.10.0-rc.1", "initrd"], .file []),
      (["images", "alpha", "2.0.0"], .directory ⟨5, 0⟩),
      (["images", "beta"], .directory ⟨5, 0⟩), (["images", "beta", "2.0.0"], .directory ⟨5, 0⟩),
      (["images", "beta", "2.0.0", "vmlinuz"], .file []),
      (["images", "beta", "2.0.0", "initrd"], .file [])]

/-- The index of two channels. -/
theorem survey_of_two {store : ImageStore} (channels : store.channels = ["alpha", "beta"])
    (tree : Tree) : store.survey tree =
      ⟨[("alpha", Version.ascending (store.keptIn tree "alpha")),
        ("beta", Version.ascending (store.keptIn tree "beta"))]⟩ := by
  unfold ImageStore.survey
  rw [channels]
  rfl

theorem listImages_threeImages :
    (initial twoChannelSetup threeImages).listImages.2 =
      .ok [⟨"alpha", ["1.9.0", "1.10.0-rc.1", "1.10.0"]⟩, ⟨"beta", ["2.0.0"]⟩] := by
  have plain : twoChannels.IsPlain threeImages := isPlain_of_looksPlain (by decide +kernel)
  have run := run_scan_of_plain plain (by decide +kernel) (by decide +kernel)
  have alpha : Version.ascending (twoChannels.keptIn threeImages "alpha") =
      [⟨1, 9, 0, [], []⟩, ⟨1, 10, 0, [['r', 'c'], ['1']], []⟩, ⟨1, 10, 0, [], []⟩] :=
    Version.ascending_eq_of_sorted (by decide +kernel) (by decide +kernel)
  have beta : Version.ascending (twoChannels.keptIn threeImages "beta") = [⟨2, 0, 0, [], []⟩] :=
    Version.ascending_eq_of_sorted (by decide +kernel) (by decide +kernel)
  rw [survey_of_two rfl, alpha, beta] at run
  have listed : (initial twoChannelSetup threeImages).listImages = _ := listImages_of_ok run
  rw [listed]
  exact congrArg Except.ok (by decide +kernel)

theorem removeEach_keeps_latest_of_threeImages :
    ∃ after reply last final,
      (initial twoChannelSetup threeImages).listImages = (after, .ok reply) ∧
        reply = [⟨"alpha", ["1.9.0", "1.10.0-rc.1", "1.10.0"]⟩, ⟨"beta", ["2.0.0"]⟩] ∧
        after.removeEach "alpha" reply ["1.9.0", "1.10.0-rc.1"] = .ok (last, final) ∧
        Client.versionsOf? final "alpha" = some ["1.10.0"] ∧
        Client.versionsOf? final "beta" = some ["2.0.0"] := by
  have listed : (initial twoChannelSetup threeImages).listImages = (_, .ok _) :=
    Prod.ext rfl listImages_threeImages
  obtain ⟨⟨last, final, removed, latest, others, -⟩, -, -⟩ :=
    @removeEach_keeps_latest twoChannelConfig ⟨none, none, none, none⟩ _ _ _ (by decide +kernel)
      store?_twoChannelConfig (by decide +kernel) (isLinkFree_of_all (by decide +kernel)) listed
      "alpha" (by decide +kernel) fun _ _ place _ => Tree.holdsIn_of_nil rfl place
  exact ⟨_, _, last, final, listed, rfl, removed, latest, others "beta" (by decide)⟩

/-- A configuration whose root leads through an image, up and away from it. -/
def throughImageConfig : Config :=
  { twoChannelConfig with storeRoot := some "/images/alpha/1.0.0/../.." }

/-- The store of this configuration. -/
def throughImageStore : ImageStore :=
  { twoChannels with root := Path.ofString "/images/alpha/1.0.0/../.." }

/-- A tree with two images in one channel. -/
def twoImages : Tree :=
  written
    [(["images"], .directory ⟨5, 0⟩), (["images", "alpha"], .directory ⟨5, 0⟩),
      (["images", "alpha", "1.0.0"], .directory ⟨5, 0⟩),
      (["images", "alpha", "1.0.0", "vmlinuz"], .file []),
      (["images", "alpha", "1.0.0", "initrd"], .file []),
      (["images", "alpha", "1.1.0"], .directory ⟨5, 0⟩),
      (["images", "alpha", "1.1.0", "vmlinuz"], .file []),
      (["images", "alpha", "1.1.0", "initrd"], .file [])]

/-- The index of these images. -/
def twoImagesIndex : ImageIndex :=
  ⟨[("alpha", [⟨1, 0, 0, [], []⟩, ⟨1, 1, 0, [], []⟩]), ("beta", [])]⟩

/-- A daemon with this store, before and after a listing. -/
def throughImageDaemon (media : ImageIndex) : Daemon :=
  { initial { twoChannelSetup with store := throughImageStore } twoImages with
    shared := { Shared.initial with media } }

/-- The two images, when a file of the old one is immutable. -/
def immutableImage : Tree :=
  { twoImages with
    held := [(["images", "alpha", "1.0.0", "initrd"].reverse.map octetsOf, .immutable)] }

/-- A listing of two images that pass both checks. -/
theorem listImages_twoImages {daemon : Daemon}
    (channels : daemon.setup.store.channels = ["alpha", "beta"])
    (plain : daemon.setup.store.IsPlain daemon.tree) (sound : daemon.tree.IsSound)
    (steady : daemon.setup.store.IsSteady daemon.tree)
    (unspoilt : daemon.setup.store.spoiled daemon.tree = [])
    (alpha : daemon.setup.store.keptIn daemon.tree "alpha" = [⟨1, 0, 0, [], []⟩, ⟨1, 1, 0, [], []⟩])
    (beta : daemon.setup.store.keptIn daemon.tree "beta" = []) :
    daemon.listImages =
      ({ daemon with shared := { daemon.shared with media := twoImagesIndex } },
        .ok twoImagesIndex.listing) := by
  have run := run_scan_of_plain plain steady sound
  have swept : daemon.setup.store.swept daemon.tree = daemon.tree := by
    unfold ImageStore.swept
    rw [unspoilt, Tree.without_nil]
  have first : Version.ascending [⟨1, 0, 0, [], []⟩, ⟨1, 1, 0, [], []⟩] =
      [⟨1, 0, 0, [], []⟩, ⟨1, 1, 0, [], []⟩] :=
    Version.ascending_eq_of_sorted (List.Perm.refl _) (by decide +kernel)
  rw [survey_of_two channels, alpha, beta, first, Version.ascending_nil, swept] at run
  exact listImages_of_ok run

/-- Where the root leads through the old version, no image is listed once it was removed. Where a
file of the old version is immutable, it is not removed at all. -/
theorem removeEach_loses_latest :
    (throughImageConfig.validate = .ok () ∧
      throughImageConfig.store? ⟨none, none, none, none⟩ = some throughImageStore ∧
      twoImages.IsSound ∧ throughImageStore.IsLinkFree twoImages ∧
      (throughImageDaemon Keyed.empty).listImages =
        (throughImageDaemon twoImagesIndex, .ok twoImagesIndex.listing) ∧
      Client.latestVersion twoImagesIndex.listing "alpha" = some "1.1.0" ∧
      ∃ last final, (throughImageDaemon twoImagesIndex).removeEach "alpha" twoImagesIndex.listing
          (Client.oldVersions twoImagesIndex.listing "alpha") = .ok (last, final) ∧
        Client.versionsOf? final "alpha" = some []) ∧
    immutableImage.IsSound ∧ twoChannels.IsLinkFree immutableImage ∧
      ∃ after, (initial twoChannelSetup immutableImage).listImages =
          (after, .ok twoImagesIndex.listing) ∧
        (after.removeEach "alpha" twoImagesIndex.listing
          (Client.oldVersions twoImagesIndex.listing "alpha")).toOption = none := by
  refine ⟨⟨by decide +kernel, ?_, by decide +kernel, isLinkFree_of_all (by decide +kernel), ?_,
    by decide +kernel, ?_⟩, by decide +kernel, isLinkFree_of_all (by decide +kernel), _,
    listImages_twoImages rfl (isPlain_of_looksPlain (by decide +kernel)) (by decide +kernel)
      (by decide +kernel) (by decide +kernel) (by decide +kernel) (by decide +kernel),
    by decide +kernel⟩
  · have cutoff : throughImageConfig.cutoff? = some ⟨1, 0⟩ := by decide +kernel
    unfold Config.store?
    rw [cutoff]
    rfl
  · exact listImages_twoImages rfl (isPlain_of_looksPlain (by decide +kernel)) (by decide +kernel)
      (by decide +kernel) (by decide +kernel) (by decide +kernel) (by decide +kernel)
  · have removal : (((throughImageDaemon twoImagesIndex).removeEach "alpha" twoImagesIndex.listing
        (Client.oldVersions twoImagesIndex.listing "alpha")).toOption.map
          (Client.versionsOf? ·.2 "alpha")) = some (some []) := by
      decide +kernel
    rcases removed : (throughImageDaemon twoImagesIndex).removeEach "alpha" twoImagesIndex.listing
        (Client.oldVersions twoImagesIndex.listing "alpha") with error | ⟨last, final⟩
    · rw [removed] at removal
      cases removal
    · rw [removed] at removal
      exact ⟨last, final, rfl, Option.some.inj removal⟩

end Daemon

end VmFleet
