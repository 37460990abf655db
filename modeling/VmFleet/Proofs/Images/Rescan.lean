/-
This file proves that a scan is stable where the discarded directories are nobody else's:
what it listed is complete in the tree it left, and scanning that tree lists the same and
takes nothing away. A link can break this. An image whose artifacts are links into a
directory that is discarded later in the same scan is listed, and is incomplete at once.
-/

import VmFleet.Proofs.Images.Scan

namespace VmFleet.ImageStore

open VmFleet.Text

variable {store : ImageStore} {tree : Tree}

/-! ### The index of the first look -/

/-- The index holds the versions that are kept in each channel, and nothing else. -/
theorem find?_survey (channel : String) :
    (store.survey tree).find? channel =
      if channel ∈ store.channels then some (Version.ascending (store.keptIn tree channel))
      else none := by
  have fold : ∀ (channels : List String) (index : ImageIndex),
      (channels.foldl (fun index channel =>
          index.insert channel (Version.ascending (store.keptIn tree channel))) index).find? channel =
        if channel ∈ channels then some (Version.ascending (store.keptIn tree channel))
        else index.find? channel := by
    intro channels
    induction channels with
    | nil => exact fun index => rfl
    | cons first channels inductionHypothesis =>
      intro index
      rw [List.foldl_cons, inductionHypothesis, Keyed.find?_insert]
      by_cases later : channel ∈ channels
      · simp [later]
      · by_cases same : first = channel
        · simp [same]
        · simp [later, same, Ne.symm same]
  exact fold store.channels Keyed.empty

theorem mem_keptIn {channel : String} {version : Version} :
    version ∈ store.keptIn tree channel ↔ ∃ location names name,
      store.shelf tree channel = .ok (location, names) ∧ name ∈ names ∧
        store.kept? tree (store.channelDirectory channel) location name = some version := by
  unfold keptIn
  rcases store.shelf tree channel with cause | ⟨location, names⟩
  · simp
  · simp only [List.mem_filterMap, Except.ok.injEq, Prod.mk.injEq]
    constructor
    · rintro ⟨name, entry, kept⟩
      exact ⟨_, _, name, ⟨rfl, rfl⟩, entry, kept⟩
    · rintro ⟨_, _, name, ⟨rfl, rfl⟩, entry, kept⟩
      exact ⟨name, entry, kept⟩

/-- The directory of a version that is kept is the one that was judged. -/
theorem versionDirectory_render (store : ImageStore) (channel : String) {name : FileName}
    {version : Version} (stands : versionOf? name = some version) :
    store.versionDirectory channel version.render =
      (store.channelDirectory channel).join ⟨name⟩ := by
  rw [(eq_octetsOf_of_versionOf? stands).1]
  rfl

/-! ### Scanning again -/

/-- Every listed version is complete, and scanning lists the same and takes nothing away. -/
structure IsSettled (store : ImageStore) (tree : Tree) (index : ImageIndex) : Prop where
  complete : ∀ channel versions, index.find? channel = some versions → ∀ version ∈ versions,
    store.isComplete tree (store.versionDirectory channel version.render) = true
  again : store.scan.run tree = (.ok index, tree)

/-- A scan settles the store if the discarded directories are nobody else's. -/
theorem scan_settles (named : ∀ channel ∈ store.channels, Config.isChannelName channel = true)
    (undisturbed : store.Undisturbed tree) {index : ImageIndex}
    (succeeds : (store.scan.run tree).1 = .ok index) :
    store.IsSettled (store.scan.run tree).2 index := by
  obtain ⟨readable, rfl, run⟩ := (carries_scan undisturbed named).of_ok succeeds
  rw [run]
  refine ⟨?_, run_scan_swept undisturbed named readable⟩
  intro channel versions found version listed
  rw [find?_survey] at found
  split at found
  · rename_i member
    rw [← Option.some.inj found, Version.mem_ascending] at listed
    obtain ⟨location, names, name, shelf, entry, kept⟩ := mem_keptIn.mp listed
    have still := undisturbed.versions channel member location names shelf name entry version kept
    obtain ⟨modified, stands, passes⟩ := kept?_eq_some.mp still
    rw [versionDirectory_render store channel (versionAt?_eq_some.mp stands).2]
    exact (Bool.and_eq_true_iff.mp passes).2
  · cases found

/-! ### Links into other images -/

/-- A tree that is written down: the names from the root on, and what stands there. -/
def written (rows : List (List String × Node)) : Tree :=
  ⟨rows.map fun (names, node) => (names.reverse.map octetsOf, node), ⟨9, 0⟩, []⟩

/-- Two channels under one root. -/
def twoChannels : ImageStore :=
  ⟨Path.ofString "/images", ["alpha", "beta"], ["vmlinuz", "initrd"], ⟨1, 0⟩⟩

/-- A tree with an image in each channel: the first one has a file and a link, and the
second one has a file only. -/
def linked (target : String) : Tree :=
  written
    [(["images"], .directory ⟨5, 0⟩), (["images", "shared"], .directory ⟨5, 0⟩),
      (["images", "shared", "vmlinuz"], .file []), (["images", "alpha"], .directory ⟨5, 0⟩),
      (["images", "alpha", "1.0.0"], .directory ⟨5, 0⟩),
      (["images", "alpha", "1.0.0", "vmlinuz"], .link (Path.ofString target)),
      (["images", "alpha", "1.0.0", "initrd"], .file []),
      (["images", "beta"], .directory ⟨5, 0⟩), (["images", "beta", "2.0.0"], .directory ⟨5, 0⟩),
      (["images", "beta", "2.0.0", "vmlinuz"], .file [])]

/-- What the index lists when there is one. -/
theorem exists_of_listing {outcome : Except FleetError ImageIndex} {listing : List ChannelImages}
    (listed : outcome.toOption.map ImageIndex.listing = some listing) :
    ∃ index, outcome = .ok index ∧ index.listing = listing := by
  cases outcome with
  | error error => cases listed
  | ok index => exact ⟨index, rfl, Option.some.inj listed⟩

/-- A link to a file that stays. -/
theorem scan_settles_of_shared :
    ∃ index, (twoChannels.scan.run (linked "../../shared/vmlinuz")).1 = .ok index ∧
      index.listing = [⟨"alpha", ["1.0.0"]⟩, ⟨"beta", []⟩] ∧
      twoChannels.IsSettled (twoChannels.scan.run (linked "../../shared/vmlinuz")).2 index := by
  obtain ⟨index, succeeds, listed⟩ :
      ∃ index, (twoChannels.scan.run (linked "../../shared/vmlinuz")).1 = .ok index ∧
        index.listing = [⟨"alpha", ["1.0.0"]⟩, ⟨"beta", []⟩] :=
    exists_of_listing (by decide +kernel)
  exact ⟨index, succeeds, listed, scan_settles (by decide) (by decide +kernel) succeeds⟩

/-- An image whose kernel is a link into an image that the same scan discards is listed and
incomplete, and the next scan takes it away. -/
theorem linked_image_is_listed_incomplete :
    ∃ index later, (twoChannels.scan.run (linked "../../beta/2.0.0/vmlinuz")).1 = .ok index ∧
      index.listing = [⟨"alpha", ["1.0.0"]⟩, ⟨"beta", []⟩] ∧
      twoChannels.isComplete (twoChannels.scan.run (linked "../../beta/2.0.0/vmlinuz")).2
        (twoChannels.versionDirectory "alpha" "1.0.0") = false ∧
      (twoChannels.scan.run (twoChannels.scan.run (linked "../../beta/2.0.0/vmlinuz")).2).1 =
        .ok later ∧ later.listing = [⟨"alpha", []⟩, ⟨"beta", []⟩] := by
  obtain ⟨index, first, listed⟩ :
      ∃ index, (twoChannels.scan.run (linked "../../beta/2.0.0/vmlinuz")).1 = .ok index ∧
        index.listing = [⟨"alpha", ["1.0.0"]⟩, ⟨"beta", []⟩] :=
    exists_of_listing (by decide +kernel)
  obtain ⟨later, second, relisted⟩ :
      ∃ later, (twoChannels.scan.run
          (twoChannels.scan.run (linked "../../beta/2.0.0/vmlinuz")).2).1 = .ok later ∧
        later.listing = [⟨"alpha", []⟩, ⟨"beta", []⟩] :=
    exists_of_listing (by decide +kernel)
  exact ⟨index, later, first, listed, by decide +kernel, second, relisted⟩

end VmFleet.ImageStore
