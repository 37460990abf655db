/-
This file proves what a removal of an image leaves behind when it fails. It takes the
version out of the index, deletes its directory and scans the store, and what was done
when something fails is not undone. A version that is not listed is refused before
anything happens; otherwise the index has lost this version and nothing else. Where the
deletion fails the files are as they were; where the scan fails the directory is gone,
and besides it no more than version directories that the scan met.
-/

import VmFleet.Proofs.Images.Requests

namespace VmFleet

/-! ### A scan that fails -/

/-- The trouble is with files. -/
def FleetError.IsIo (error : FleetError) : Prop :=
  ∃ context cause, error = .io context cause

namespace ImageStore

open TreeRequest

variable {store : ImageStore} {tree left : Tree} {channel text : String} {place : Location}

theorem complains_judge (store : ImageStore) (directory : Path) (location : Location)
    (name : FileName) : Complains (store.judge directory location name) FleetError.IsIo := by
  unfold judge
  refine (complains_inspect _).bind fun found => ?_
  split
  · refine (complains_inspect _).bind fun complete => ?_
    split
    · exact complains_pure _
    · refine Complains.bind ?_ fun _ => complains_pure _
      exact complains_explain _ _ fun cause => ⟨_, cause, rfl⟩
  · exact complains_pure _

theorem complains_scanChannel (store : ImageStore) (channel : String) :
    Complains (store.scanChannel channel) FleetError.IsIo := by
  unfold scanChannel
  refine (complains_attempt _).bind fun listing => ?_
  split
  · exact complains_pure _
  · exact complains_throw ⟨_, _, rfl⟩
  · exact (Complains.mapM (complains_judge store _ _) _).bind fun _ => complains_pure _

/-- A scan fails for files alone. -/
theorem complains_scan (store : ImageStore) : Complains store.scan FleetError.IsIo :=
  Complains.foldlM (fun _ channel =>
    (complains_scanChannel store channel).bind fun _ => complains_pure _) _ _

/-! ### A deletion -/

theorem isSound_lacking (sound : tree.IsSound) (path : Path) : (lacking tree path).IsSound := by
  unfold lacking
  split
  · rw [tree.prune_eq_without]
    exact sound.without _
  · exact sound

/-- The path of a listed version leads to an entry of a directory. -/
theorem found_of_resolve {version : Version} (spelt : Version.parse? text = some version)
    (leads : tree.resolve ⟨false, false⟩ [] (store.versionDirectory channel text) = .ok place) :
    place ≠ [] ∧ tree.find? place ≠ none := by
  have proper := (isProper_of_versionOf? (versionOf?_octetsOf spelt)).1
  obtain ⟨-, location, -, -, rfl, found⟩ := (Tree.resolve_join_eq_ok proper).mp leads
  exact ⟨List.cons_ne_nil _ _, found⟩

/-- A deletion takes away what stands at the path of a version, if anything does. Or it fails and
changes nothing, or it sticks. -/
theorem run_deleteVersion_ends {version parsed : Version}
    (spelt : Version.parse? version.render = some parsed) (tree : Tree) :
    (store.deleteVersion channel version).run tree =
        (.ok (), lacking tree (store.versionDirectory channel version.render)) ∧
      store.Lacks (lacking tree (store.versionDirectory channel version.render)) channel
        version.render ∨
    ∃ cause left, (store.deleteVersion channel version).run tree =
        (.error (.io ("removing " ++ (store.versionDirectory channel version.render).display) cause),
          left) ∧
      (left = tree ∨ store.SticksIn tree channel version.render cause left) := by
  unfold lacking
  cases leads : tree.resolve ⟨false, false⟩ [] (store.versionDirectory channel version.render) with
  | error cause =>
    have ran := run_removeAll_of_error leads
    by_cases missing : cause = .noEntry
    · subst missing
      exact .inl ⟨run_deleteVersion_of_gone ran (.inr rfl), leads⟩
    · exact .inr ⟨cause, tree, run_deleteVersion_of_refused ran missing, .inl rfl⟩
  | ok place =>
    obtain ⟨proper, found⟩ := found_of_resolve spelt leads
    rcases run_removeAll_cases leads found with removed | ⟨cause, left, refused, other, ended⟩
    · exact .inl ⟨run_deleteVersion_of_gone removed (.inl rfl), lacks_prune proper leads⟩
    · refine .inr ⟨cause, left, run_deleteVersion_of_refused refused other, ended.imp_right ?_⟩
      exact fun ⟨directory, sticks⟩ =>
        ⟨place, leads, directory, sticks.isDirectoryAt.trans directory, sticks⟩

end ImageStore

namespace Daemon

open ImageStore

variable {daemon later after : Daemon} {channel version : String} {error : FleetError}

/-! ### The index while the files change -/

/-- The files are laid out as files can be, and the index lists what is spelt as a version,
whether or not it is there. -/
structure IsOrderly (daemon : Daemon) : Prop where
  sound : daemon.tree.IsSound
  spelt : ∀ channel text, daemon.shared.media.Lists channel text →
    ∃ version, Version.parse? text = some version

/-- What comes of requests on images, while somebody else changes the files at will. -/
inductive Drifts (daemon : Daemon) : Daemon → Prop
  | start : Drifts daemon daemon
  | request {between : Daemon} (ahead : Drifts daemon between) (request : ImageRequest) :
    Drifts daemon (between.serve request).1
  | change {between : Daemon} (ahead : Drifts daemon between) (tree : Tree)
    (sound : tree.IsSound) : Drifts daemon { between with tree }

theorem isOrderly_initial (setup : Setup) {tree : Tree} (sound : tree.IsSound) :
    (initial setup tree).IsOrderly :=
  ⟨sound, fun _ _ => nofun⟩

/-- Where the index lists a version, a removal takes it out. Then it comes down to a listing
without the directory, or the deletion fails. -/
theorem IsOrderly.removeImage_cases (orderly : daemon.IsOrderly)
    (listed : daemon.shared.media.Lists channel version) :
    daemon.removeImage channel version =
          ((daemon.unlisting channel version).deleting channel version).listImages ∧
        daemon.setup.store.Lacks ((daemon.unlisting channel version).deleting channel version).tree
          channel version ∨
      ∃ cause left, daemon.removeImage channel version =
          ({ daemon.unlisting channel version with tree := left }, .error (.io ("removing " ++
            (daemon.setup.store.versionDirectory channel version).display) cause)) ∧
        (left = daemon.tree ∨
          daemon.setup.store.SticksIn daemon.tree channel version cause left) := by
  obtain ⟨parsed, spelt⟩ := orderly.spelt channel version listed
  obtain ⟨taken, rfl, took⟩ := takeImage_of_lists listed
  unfold removeImage
  rw [took]
  rcases @run_deleteVersion_ends daemon.setup.store channel taken parsed spelt daemon.tree with
    ⟨ran, lacks⟩ | ⟨cause, left, ran, ended⟩
  · have deleted : (daemon.unlisting channel taken.render).deleteImage channel taken =
        ((daemon.unlisting channel taken.render).deleting channel taken.render, .ok ()) :=
      deleteImage_of_run ran
    exact .inl ⟨by simp only [deleted], lacks⟩
  · have stuck := @deleteImage_of_run (daemon.unlisting channel taken.render) channel taken _ _ ran
    exact .inr ⟨cause, left, by simp only [stuck], ended⟩

section Orderly

variable (configured : daemon.setup.store.IsConfigured) (orderly : daemon.IsOrderly)

include configured orderly

theorem IsOrderly.listImages : daemon.listImages.1.IsOrderly := by
  obtain ⟨clears, lists⟩ :=
    keeps_scan configured orderly.sound daemon.tree (clears_self daemon.setup.store daemon.tree)
  unfold Daemon.listImages
  rcases run : daemon.setup.store.scan.run daemon.tree with ⟨error | index, left⟩
  · rw [run] at clears
    exact ⟨clears.isSound orderly.sound, orderly.spelt⟩
  · rw [run] at clears lists
    exact ⟨clears.isSound orderly.sound,
      fun _ _ listed => (listed.parse (lists index rfl)).2.1⟩

/-- A request on images leaves the files and the index in order. -/
theorem IsOrderly.serve (request : ImageRequest) :
    (daemon.serve request).1.setup = daemon.setup ∧ (daemon.serve request).1.IsOrderly := by
  cases request with
  | list => exact ⟨setup_listImages daemon, orderly.listImages configured⟩
  | remove channel version =>
    show (daemon.removeImage channel version).1.setup = daemon.setup ∧
      (daemon.removeImage channel version).1.IsOrderly
    have dropped : ∀ other text, (daemon.unlisting channel version).shared.media.Lists other text →
        ∃ parsed, Version.parse? text = some parsed :=
      fun other text kept => orderly.spelt other text kept.of_dropping
    by_cases listed : daemon.shared.media.Lists channel version
    · rcases orderly.removeImage_cases listed with ⟨removed, -⟩ | ⟨cause, left, stuck, ended⟩
      · have deleted : ((daemon.unlisting channel version).deleting channel version).IsOrderly :=
          ⟨isSound_lacking orderly.sound _, dropped⟩
        rw [removed]
        exact ⟨setup_listImages _, deleted.listImages configured⟩
      · have sound : left.IsSound :=
          ended.elim (· ▸ orderly.sound) fun sticks => sticks.isSound orderly.sound
        rw [stuck]
        exact ⟨rfl, sound, dropped⟩
    · rw [removeImage_of_not_lists listed]
      exact ⟨rfl, orderly⟩

/-- Whatever is asked and however the files change meanwhile, the index is in order. -/
theorem IsOrderly.drifts (drifts : daemon.Drifts later) :
    later.setup = daemon.setup ∧ later.IsOrderly := by
  induction drifts with
  | start => exact ⟨rfl, orderly⟩
  | request _ request inductionHypothesis =>
    obtain ⟨same, before⟩ := inductionHypothesis
    obtain ⟨kept, after⟩ := before.serve (same ▸ configured) request
    exact ⟨kept.trans same, after⟩
  | change _ tree sound inductionHypothesis =>
    exact ⟨inductionHypothesis.1, sound, inductionHypothesis.2.spelt⟩

end Orderly

/-! ### What a removal that fails leaves behind -/

/-- How the removal of a version fails, and what it leaves. -/
inductive RemovalFails (daemon : Daemon) (channel version : String) : FleetError → Daemon → Prop
  /-- The version is not listed. Then nothing happens. -/
  | unlisted (unlisted : ¬ daemon.shared.media.Lists channel version) :
    RemovalFails daemon channel version (.imageNotFound channel version) daemon
  /-- The deletion fails. Then the files are as they were, or the system holds on to something in
  the directory of the version: the directory stands still, and no more than a part of what was in
  it is gone. -/
  | undeleted (cause : Cause) (left : Tree) (listed : daemon.shared.media.Lists channel version)
    (ended : left = daemon.tree ∨
      daemon.setup.store.SticksIn daemon.tree channel version cause left) :
    RemovalFails daemon channel version
      (.io ("removing " ++ (daemon.setup.store.versionDirectory channel version).display) cause)
      { daemon.unlisting channel version with tree := left }
  /-- The closing scan fails. Then the version is gone, and besides it no more than version
  directories that the scan took away, or a part of, before it failed. -/
  | unscanned (context : String) (cause : Cause) (left : Tree)
    (listed : daemon.shared.media.Lists channel version)
    (scanned : daemon.setup.store.scan.run ((daemon.unlisting channel version).deleting channel
      version).tree = (.error (.io context cause), left))
    (clears : daemon.setup.store.Clears
      ((daemon.unlisting channel version).deleting channel version).tree left)
    (lacks : daemon.setup.store.Lacks left channel version) :
    RemovalFails daemon channel version (.io context cause)
      { daemon.unlisting channel version with tree := left }

theorem IsOrderly.removalFails (configured : daemon.setup.store.IsConfigured)
    (orderly : daemon.IsOrderly)
    (failed : daemon.removeImage channel version = (after, .error error)) :
    daemon.RemovalFails channel version error after := by
  by_cases listed : daemon.shared.media.Lists channel version
  · rcases orderly.removeImage_cases listed with ⟨removed, lacks⟩ | ⟨cause, left, stuck, ended⟩
    · have sound : ((daemon.unlisting channel version).deleting channel version).tree.IsSound :=
        isSound_lacking orderly.sound _
      obtain ⟨left, scanned, rfl⟩ := listImages_eq_error (removed.symm.trans failed)
      obtain ⟨context, cause, rfl⟩ :=
        complains_scan daemon.setup.store _ _ (congrArg Prod.fst scanned)
      have reached : daemon.setup.store.scan.run
          ((daemon.unlisting channel version).deleting channel version).tree =
        (.error (.io context cause), left) := scanned
      have clears := (keeps_scan configured sound _ (clears_self daemon.setup.store _)).1
      rw [reached] at clears
      exact .unscanned context cause left listed reached clears (clears.lacks lacks)
    · obtain ⟨rfl, same⟩ := Prod.mk.inj (stuck.symm.trans failed)
      obtain rfl := Except.error.inj same
      exact .undeleted cause left listed ended
  · obtain ⟨rfl, same⟩ := Prod.mk.inj ((removeImage_of_not_lists listed).symm.trans failed)
    obtain rfl := Except.error.inj same
    exact .unlisted listed

/-- The index that a failed removal leaves has lost this version, if it was listed, and nothing
else. -/
theorem RemovalFails.texts (fails : daemon.RemovalFails channel version error after)
    (other : String) : after.shared.media.texts other =
      if channel = other then (daemon.shared.media.texts channel).erase version
      else daemon.shared.media.texts other := by
  cases fails with
  | unlisted unlisted =>
    have none : version ∉ daemon.shared.media.texts channel :=
      fun member => unlisted (ImageIndex.mem_texts.mp member)
    rw [List.erase_of_not_mem none]
    split
    · rename_i same
      rw [same]
    · rfl
  | undeleted | unscanned => exact ImageIndex.texts_dropping other

/-- A removal is refused exactly if the version is not listed. -/
theorem RemovalFails.imageNotFound_iff (fails : daemon.RemovalFails channel version error after) :
    error = .imageNotFound channel version ↔ ¬ daemon.shared.media.Lists channel version := by
  cases fails with
  | unlisted unlisted => exact iff_of_true rfl unlisted
  | undeleted _ _ listed | unscanned _ _ _ listed =>
    exact iff_of_false (fun same => by cases same) (absurd listed)

/-- However the files have changed since the last listing, a removal that fails as the version is
not listed changes nothing, and one that fails later is not undone: the version is out of the
index, and nothing else is. The files are as they were unless the deletion has begun. -/
theorem failed_removal_forgets_one {config : Config} {environment : Environment}
    (valid : config.validate = .ok ())
    (stored : config.store? environment = some daemon.setup.store) (orderly : daemon.IsOrderly)
    (channel version : String) :
    ((daemon.removeImage channel version).2 = .error (.imageNotFound channel version) ↔
      ¬ daemon.shared.media.Lists channel version) ∧
    ∀ after error, daemon.removeImage channel version = (after, .error error) →
      daemon.RemovalFails channel version error after ∧
        ∀ other, after.shared.media.texts other =
          if channel = other then (daemon.shared.media.texts channel).erase version
          else daemon.shared.media.texts other := by
  have configured := Config.isConfigured_of_validate valid stored
  refine ⟨⟨fun refused => ?_, fun unlisted => ?_⟩, fun after error failed => ?_⟩
  · exact (orderly.removalFails configured (Prod.ext rfl refused)).imageNotFound_iff.mp rfl
  · rw [removeImage_of_not_lists unlisted]
  · have fails := orderly.removalFails configured failed
    exact ⟨fails, fails.texts⟩

/-- The daemon that has listed an image of each channel, when the files have changed since. -/
def listedBefore (tree : Tree) : Daemon :=
  { listedEach with tree }

theorem isOrderly_listedBefore {tree : Tree} (sound : tree.IsSound) :
    (listedBefore tree).setup = twoChannelSetup ∧ (listedBefore tree).IsOrderly := by
  have valid : twoChannelConfig.validate = .ok () := by decide +kernel
  have started : (initial twoChannelSetup oneImageEach).IsOrderly :=
    isOrderly_initial twoChannelSetup (by decide +kernel)
  exact started.drifts (Config.isConfigured_of_validate valid store?_twoChannelConfig)
    ((Drifts.start.request .list).change tree sound)

/-- A tree with a file in the place of an image. -/
def fileForImage : Tree :=
  written
    [(["images"], .directory ⟨5, 0⟩), (["images", "alpha"], .directory ⟨5, 0⟩),
      (["images", "alpha", "1.0.0"], .file []), (["images", "beta"], .directory ⟨5, 0⟩)]

/-- A file is not deleted, and its version is out of the index. -/
theorem failed_removal_forgets_one_of_fileForImage :
    ∃ after, (listedBefore fileForImage).removeImage "alpha" "1.0.0" =
        (after, .error (.io "removing /images/alpha/1.0.0" .notDirectory)) ∧
      after.shared.media.texts "alpha" = [] ∧ after.shared.media.texts "beta" = ["2.0.0"] := by
  have answer : ((listedBefore fileForImage).removeImage "alpha" "1.0.0").2 =
      .error (.io "removing /images/alpha/1.0.0" .notDirectory) := by
    decide +kernel
  have listed : (listedBefore fileForImage).shared.media.texts "alpha" = ["1.0.0"] ∧
      (listedBefore fileForImage).shared.media.texts "beta" = ["2.0.0"] := by
    decide +kernel
  obtain ⟨same, orderly⟩ := @isOrderly_listedBefore fileForImage (by decide +kernel)
  have stored : twoChannelConfig.store? ⟨none, none, none, none⟩ =
      some (listedBefore fileForImage).setup.store := by
    rw [same]
    exact store?_twoChannelConfig
  obtain ⟨-, fails⟩ :=
    failed_removal_forgets_one (by decide +kernel) stored orderly "alpha" "1.0.0"
  obtain ⟨-, texts⟩ := fails _ _ (Prod.ext rfl answer)
  have alpha := texts "alpha"
  have beta := texts "beta"
  rw [listed.1] at alpha
  rw [listed.2] at beta
  exact ⟨_, Prod.ext rfl answer, alpha, beta⟩

/-- A tree with an image and a file in the place of a channel. -/
def fileForChannel : Tree :=
  written
    [(["images"], .directory ⟨5, 0⟩), (["images", "alpha"], .directory ⟨5, 0⟩),
      (["images", "alpha", "1.0.0"], .directory ⟨5, 0⟩),
      (["images", "alpha", "1.0.0", "vmlinuz"], .file []),
      (["images", "alpha", "1.0.0", "initrd"], .file []), (["images", "beta"], .file [])]

/-- The two images, when a file of one of them is immutable. -/
def immutableInitrd : Tree :=
  { oneImageEach with
    held := [(["images", "alpha", "1.0.0", "initrd"].reverse.map Text.octetsOf, .immutable)] }

/-- The closing scan fails at a channel that is a file. By then the image of the other channel is
off the disk and out of the index. And a deletion that sticks has half of an image gone. -/
theorem failed_removal_deletes_image :
    (∃ after, (listedBefore fileForChannel).removeImage "alpha" "1.0.0" =
        (after, .error (.io "reading /images/beta" .notDirectory)) ∧
      ((listedBefore fileForChannel).shared.media.Lists "alpha" "1.0.0" ∧
        ¬ after.shared.media.Lists "alpha" "1.0.0") ∧
      fileForChannel.isDirectory [] (Path.ofString "/images/alpha/1.0.0") = true ∧
      after.tree.isDirectory [] (Path.ofString "/images/alpha/1.0.0") = false) ∧
    ∃ after, (listedBefore immutableInitrd).removeImage "alpha" "1.0.0" =
        (after, .error (.io "removing /images/alpha/1.0.0" .notPermitted)) ∧
      ((listedBefore immutableInitrd).shared.media.Lists "alpha" "1.0.0" ∧
        ¬ after.shared.media.Lists "alpha" "1.0.0") ∧
      immutableInitrd.isFile [] (Path.ofString "/images/alpha/1.0.0/vmlinuz") = true ∧
      after.tree.isFile [] (Path.ofString "/images/alpha/1.0.0/vmlinuz") = false ∧
      after.tree.isFile [] (Path.ofString "/images/alpha/1.0.0/initrd") = true := by
  constructor
  · refine ⟨_, Prod.ext rfl (?_ : _ = Except.error _), ⟨?_, ?_⟩, ?_, ?_⟩ <;> decide +kernel
  · refine ⟨_, Prod.ext rfl (?_ : _ = Except.error _), ⟨?_, ?_⟩, ?_, ?_, ?_⟩ <;> decide +kernel

end Daemon

end VmFleet
