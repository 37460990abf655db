/-
This file proves that a scan is exact. Where no link leads from one image into another and
the channels can be relied on, it succeeds, lists just the versions whose directories pass
both checks, in ascending order, and takes away just those that fail one. The order in
which directories list their names does not show, neither in the index nor in the tree.
-/

import VmFleet.Proofs.Images.Plain

namespace VmFleet.ImageStore

open VmFleet.Text

/-- A text names a version that is to be listed: there stands a directory that was changed
after the cutoff and has every artifact as a file. -/
def Offers (store : ImageStore) (tree : Tree) (channel text : String) : Prop :=
  ∃ modified, tree.entry [] (store.versionDirectory channel text) = .ok (.directory modified) ∧
    store.staleBefore.isBefore modified = true ∧ ∀ artifact ∈ store.artifacts, ∃ content,
      tree.entry [] ((store.versionDirectory channel text).child artifact) = .ok (.file content)

/-- An index and the places that are gone say exactly what a tree offers. -/
structure IsExact (store : ImageStore) (tree : Tree) (index : ImageIndex) (gone : List Location) :
    Prop where
  keys : ∀ channel, channel ∈ index.keys ↔ channel ∈ store.channels
  once : index.keys.Pairwise (· < ·)
  ascending : ∀ channel versions, index.find? channel = some versions →
    versions.Pairwise (Version.order · · = .lt)
  listed : ∀ channel versions, index.find? channel = some versions → ∀ version,
    version ∈ versions ↔
      ∃ text, Version.parse? text = some version ∧ store.Offers tree channel text
  discarded : ∀ place, place ∈ gone ↔ ∃ channel ∈ store.channels, ∃ text version modified,
    Version.parse? text = some version ∧
      tree.resolve ⟨false, false⟩ [] (store.versionDirectory channel text) = .ok place ∧
      tree.find? place = some (.directory modified) ∧ ¬ store.Offers tree channel text

variable {store : ImageStore} {tree : Tree}

section Verdict

variable (plain : store.IsPlain tree) (steady : store.IsSteady tree) (sound : tree.IsSound)
  {channel : String} (member : channel ∈ store.channels) {text : String} {version : Version}
  (spelt : Version.parse? text = some version)

include plain steady sound member spelt

/-- A version directory is one at the first look. -/
theorem entry_version_iff {modified : Timestamp} :
    tree.entry [] (store.versionDirectory channel text) = .ok (.directory modified) ↔
      ∃ root, store.shelf tree channel =
          .ok (octetsOf channel :: root, tree.namesAt (octetsOf channel :: root)) ∧
        versionAt? tree (octetsOf channel :: root) (octetsOf text) = some (modified, version) := by
  have stands := versionOf?_octetsOf spelt
  have proper := (isProper_of_versionOf? stands).1
  have named := plain.channelNames channel member
  have channelProper := isProper_of_isChannelName named
  constructor
  · intro entry
    obtain ⟨⟨accepted, -⟩, location, reached, -, -⟩ := (Tree.entry_join_eq_ok proper).mp entry
    -- the channel is there, since something stands in it
    have accepts := Tree.accepts_of_join proper.whole
      (Path.octets_join_ne_nil channelProper.nonempty channelProper.whole) accepted
    have outer := (Tree.namesLead_join tree [] channelProper.nonempty channelProper.whole
      accepts).symm.trans reached
    rcases plain.shelf_cases member with missing | ⟨root, -, shelf⟩
    · have leads : tree.resolve ⟨true, false⟩ [] (store.channelDirectory channel) = .ok location :=
        outer
      unfold shelf Tree.listing at missing
      rw [leads] at missing
      simp only [bind, Except.bind] at missing
      split at missing <;> cases missing
    · refine ⟨root, shelf, versionAt?_eq_some.mpr ⟨?_, stands⟩⟩
      obtain ⟨leads, inside, -⟩ := shelf_eq_ok.mp shelf
      exact ((entry_in_channel named leads proper inside).mp entry).2
  · rintro ⟨root, shelf, found⟩
    obtain ⟨directory, -⟩ := versionAt?_eq_some.mp found
    obtain ⟨leads, inside, -⟩ := shelf_eq_ok.mp shelf
    exact (entry_in_channel named leads proper inside).mpr
      ⟨steady.removable member leads stands (sound.length_le directory), directory⟩

omit steady sound in
/-- A version directory passes both checks if it is to be listed. -/
theorem passes_iff {modified : Timestamp}
    (entry : tree.entry [] (store.versionDirectory channel text) = .ok (.directory modified)) :
    store.passes tree (store.channelDirectory channel) (octetsOf text) modified = true ↔
      store.Offers tree channel text := by
  have free := plain.artifacts channel member text version modified spelt entry
  have files : store.isComplete tree (store.versionDirectory channel text) = true ↔
      ∀ artifact ∈ store.artifacts, ∃ content,
        tree.entry [] ((store.versionDirectory channel text).child artifact) =
          .ok (.file content) := by
    unfold isComplete
    rw [List.all_eq_true]
    exact forall₂_congr fun artifact listed => Tree.isFile_iff_entry (free artifact listed)
  unfold passes
  rw [Bool.and_eq_true]
  constructor
  · rintro ⟨fresh, complete⟩
    exact ⟨modified, entry, fresh, files.mp complete⟩
  · rintro ⟨changed, again, fresh, complete⟩
    obtain ⟨⟩ := Except.ok.inj (entry.symm.trans again)
    exact ⟨fresh, files.mpr complete⟩

end Verdict

section Look

variable (plain : store.IsPlain tree) (steady : store.IsSteady tree) (sound : tree.IsSound)

include plain steady sound

/-- What stands for a version in a channel is the directory of that version. -/
theorem entry_of_versionAt? {channel : String} (member : channel ∈ store.channels)
    {location : Location} {names : List FileName} {name : FileName} {modified : Timestamp}
    {version : Version} (shelf : store.shelf tree channel = .ok (location, names))
    (found : versionAt? tree location name = some (modified, version)) :
    name = octetsOf version.render ∧ Version.parse? version.render = some version ∧
      tree.entry [] (store.versionDirectory channel version.render) = .ok (.directory modified) := by
  obtain ⟨spelt, read⟩ := eq_octetsOf_of_versionOf? (versionAt?_eq_some.mp found).2
  refine ⟨spelt, read, (entry_version_iff plain steady sound member read).mpr ?_⟩
  rcases plain.shelf_cases member with missing | ⟨root, -, same⟩
  · rw [missing] at shelf
    cases shelf
  obtain ⟨rfl, rfl⟩ := Prod.mk.inj (Except.ok.inj (same.symm.trans shelf))
  rw [spelt] at found
  exact ⟨root, same, found⟩

/-- The versions that are kept in a channel are those that are to be listed. -/
theorem mem_keptIn_iff {channel : String} (member : channel ∈ store.channels) {version : Version} :
    version ∈ store.keptIn tree channel ↔
      ∃ text, Version.parse? text = some version ∧ store.Offers tree channel text := by
  rw [mem_keptIn]
  constructor
  · rintro ⟨location, names, name, shelf, -, kept⟩
    obtain ⟨modified, found, passes⟩ := kept?_eq_some.mp kept
    obtain ⟨rfl, read, entry⟩ := entry_of_versionAt? plain steady sound member shelf found
    exact ⟨version.render, read, (passes_iff plain member read entry).mp passes⟩
  · rintro ⟨text, read, offers⟩
    obtain ⟨modified, entry, -⟩ := id offers
    obtain ⟨root, shelf, found⟩ := (entry_version_iff plain steady sound member read).mp entry
    exact ⟨_, _, octetsOf text, shelf,
      (Tree.mem_namesAt_iff_find? sound).mpr ⟨_, (versionAt?_eq_some.mp found).1⟩,
      kept?_eq_some.mpr ⟨modified, found, (passes_iff plain member read entry).mpr offers⟩⟩

/-- The places that are to be taken away are those of the version directories that are not to
be listed. -/
theorem mem_spoiled_iff {place : Location} :
    place ∈ store.spoiled tree ↔ ∃ channel ∈ store.channels, ∃ text version modified,
      Version.parse? text = some version ∧
        tree.resolve ⟨false, false⟩ [] (store.versionDirectory channel text) = .ok place ∧
        tree.find? place = some (.directory modified) ∧ ¬ store.Offers tree channel text := by
  rw [mem_spoiled]
  refine exists_congr fun channel => and_congr_right fun member => ?_
  rw [mem_spoiledIn]
  have channelProper := isProper_of_isChannelName (plain.channelNames channel member)
  constructor
  · rintro ⟨location, names, name, shelf, -, discarded, rfl⟩
    obtain ⟨modified, version, found, fails⟩ := discards_iff.mp discarded
    obtain ⟨directory, stands⟩ := versionAt?_eq_some.mp found
    obtain ⟨rfl, read, entry⟩ := entry_of_versionAt? plain steady sound member shelf found
    refine ⟨version.render, version, modified, read, ?_, directory, ?_⟩
    · exact Tree.resolve_of_entry_below channelProper.nonempty channelProper.whole
        (shelf_eq_ok.mp shelf).1 (isProper_of_versionOf? stands).1 entry
    · rw [← passes_iff plain member read entry, fails]
      exact nofun
  · rintro ⟨text, version, modified, read, leads, directory, refused⟩
    have entry := Tree.entry_eq_ok.mpr ⟨place, leads, directory⟩
    obtain ⟨root, shelf, found⟩ := (entry_version_iff plain steady sound member read).mp entry
    have fails := mt (passes_iff plain member read entry).mp refused
    have same := Tree.resolve_of_entry_below channelProper.nonempty channelProper.whole
      (shelf_eq_ok.mp shelf).1 (isProper_of_versionOf? (versionOf?_octetsOf read)).1 entry
    obtain rfl := Except.ok.inj (leads.symm.trans same)
    exact ⟨_, _, octetsOf text, shelf,
      (Tree.mem_namesAt_iff_find? sound).mpr ⟨_, (versionAt?_eq_some.mp found).1⟩,
      discards_iff.mpr ⟨modified, version, found, Bool.eq_false_iff.mpr fails⟩, rfl⟩

omit plain steady in
/-- No version is kept twice. -/
theorem nodup_keptIn (channel : String) : (store.keptIn tree channel).Nodup := by
  unfold keptIn
  cases shelf : store.shelf tree channel with
  | error cause => exact List.nodup_nil
  | ok entries =>
    obtain ⟨location, names⟩ := entries
    obtain ⟨-, -, rfl⟩ := shelf_eq_ok.mp shelf
    refine sound.nodup_namesAt.filterMap fun left right version first second => ?_
    rw [eq_octetsOf_of_kept? first, eq_octetsOf_of_kept? second]

omit plain steady sound in
/-- The channels stand in the index in their order. -/
theorem isAscending_survey (store : ImageStore) (tree : Tree) : (store.survey tree).IsAscending := by
  have fold : ∀ (channels : List String) (index : ImageIndex), index.IsAscending →
      (channels.foldl (fun index channel =>
        index.insert channel (Version.ascending (store.keptIn tree channel))) index).IsAscending := by
    intro channels
    induction channels with
    | nil => exact fun index ascending => ascending
    | cons channel channels inductionHypothesis =>
      exact fun index ascending => inductionHypothesis _ (ascending.insert channel _)
  exact fold store.channels Keyed.empty Keyed.isAscending_empty

/-- The first look says exactly what the tree offers. -/
theorem isExact_survey : store.IsExact tree (store.survey tree) (store.spoiled tree) := by
  have found : ∀ {channel versions}, (store.survey tree).find? channel = some versions →
      channel ∈ store.channels ∧ versions = Version.ascending (store.keptIn tree channel) := by
    intro channel versions found
    rw [find?_survey] at found
    split at found
    · rename_i member
      exact ⟨member, (Option.some.inj found).symm⟩
    · cases found
  refine ⟨?_, ?_, ?_, ?_, fun place => mem_spoiled_iff plain steady sound⟩
  · intro channel
    rw [Keyed.mem_keys_iff, find?_survey]
    split <;> simp_all
  · exact isAscending_survey store tree
  · intro channel versions listed
    rw [(found listed).2]
    exact Version.pairwise_ascending (nodup_keptIn sound channel)
  · intro channel versions listed version
    obtain ⟨member, rfl⟩ := found listed
    rw [Version.mem_ascending]
    exact mem_keptIn_iff plain steady sound member

end Look

/-! ### The order of the names in a directory -/

section Order

variable {other : Tree} (same : Tree.SameRows tree other) (sound : tree.IsSound)

include same sound

/-- The verdict on an entry does not depend on the order. -/
theorem verdict_of_sameRows (directory : Path) (location : Location) :
    store.kept? other directory location = store.kept? tree directory location ∧
      store.discards other directory location = store.discards tree directory location := by
  have agree := same.find? sound
  have version : versionAt? other location = versionAt? tree location := by
    funext name
    unfold versionAt?
    rw [agree]
  have passes : store.passes other directory = store.passes tree directory := by
    funext name modified
    unfold ImageStore.passes isComplete
    simp only [Tree.isFile_congr agree]
  unfold ImageStore.kept? ImageStore.discards
  rw [version, passes]
  exact ⟨rfl, rfl⟩

/-- A channel has the same names in some order. -/
theorem shelf_of_sameRows (store : ImageStore) (channel : String) :
    (∃ cause, store.shelf tree channel = .error cause ∧ store.shelf other channel = .error cause) ∨
      ∃ location names names', store.shelf tree channel = .ok (location, names) ∧
        store.shelf other channel = .ok (location, names') ∧ names'.Perm names := by
  have agree := same.find? sound
  unfold shelf Tree.listing
  rw [Tree.resolve_congr agree]
  cases tree.resolve ⟨true, false⟩ [] (store.channelDirectory channel) with
  | error cause => exact .inl ⟨cause, rfl, rfl⟩
  | ok location =>
    simp only [bind, Except.bind, Tree.isDirectoryAt_congr agree]
    split
    · exact .inr ⟨location, _, _, rfl, rfl, same.namesAt⟩
    · exact .inl ⟨_, rfl, rfl⟩

theorem survey_of_sameRows : store.survey other = store.survey tree := by
  have kept : ∀ channel, Version.ascending (store.keptIn other channel) =
      Version.ascending (store.keptIn tree channel) := by
    intro channel
    refine Version.ascending_eq_of_perm ?_
    unfold keptIn
    rcases shelf_of_sameRows same sound store channel with
      ⟨cause, shelf, shelf'⟩ | ⟨location, names, names', shelf, shelf', perm⟩
    · rw [shelf, shelf']
    · rw [shelf, shelf']
      simp only [(verdict_of_sameRows same sound _ _).1]
      exact perm.filterMap _
  unfold survey
  simp only [kept]

theorem mem_spoiled_of_sameRows (place : Location) :
    place ∈ store.spoiled other ↔ place ∈ store.spoiled tree := by
  rw [mem_spoiled, mem_spoiled]
  refine exists_congr fun channel => and_congr_right fun _ => ?_
  unfold spoiledIn
  rcases shelf_of_sameRows same sound store channel with
    ⟨cause, shelf, shelf'⟩ | ⟨location, names, names', shelf, shelf', perm⟩
  · rw [shelf, shelf']
  · rw [shelf, shelf']
    simp only [(verdict_of_sameRows same sound _ _).2]
    exact ((perm.filter _).map _).mem_iff

theorem swept_of_sameRows (store : ImageStore) :
    Tree.SameRows (store.swept tree) (store.swept other) :=
  same.without (mem_spoiled_of_sameRows same sound)

theorem IsPlain.of_sameRows (plain : store.IsPlain tree) : store.IsPlain other := by
  have agree := same.find? sound
  have entries : other.entry [] = tree.entry [] := funext fun path => Tree.entry_congr agree [] path
  refine ⟨plain.channelNames, plain.artifactNames, ?_, ?_⟩
  · rw [entries]
    exact plain.channels
  · rw [entries]
    exact plain.artifacts

theorem IsSteady.of_sameRows (steady : store.IsSteady tree) : store.IsSteady other := by
  refine ⟨steady.room, fun channel member => ?_, fun place spoilt => ?_⟩
  · have swept := (swept_of_sameRows same sound store).find? (sound.without _)
    rw [Tree.resolve_congr swept, Tree.resolve_congr (same.find? sound)]
    exact steady.leads channel member
  · rw [same.holdsIn]
    exact steady.yields place ((mem_spoiled_of_sameRows same sound place).mp spoilt)

end Order

/-! ### The result of a scan -/

theorem run_scan_of_plain (plain : store.IsPlain tree) (steady : store.IsSteady tree)
    (sound : tree.IsSound) :
    store.scan.run tree = (.ok (store.survey tree), store.swept tree) :=
  (carries_scan (undisturbed_of_plain plain steady sound) plain.channelNames).of_possible
    fun _ member => workable_of_plain plain steady sound member

/-- A scan succeeds, lists exactly what the tree offers and takes away exactly the other version
directories, whatever the order in which directories list their names. -/
def ScansExactly (store : ImageStore) (tree : Tree) : Prop :=
  ∃ index gone, store.IsExact tree index gone ∧
    store.scan.run tree = (.ok index, tree.without gone) ∧
    ∀ other, Tree.SameRows tree other → ∃ left, store.scan.run other = (.ok index, left) ∧
      Tree.SameRows (tree.without gone) left

theorem scan_exact (plain : store.IsPlain tree) (steady : store.IsSteady tree)
    (sound : tree.IsSound) : store.ScansExactly tree := by
  refine ⟨store.survey tree, store.spoiled tree, isExact_survey plain steady sound,
    run_scan_of_plain plain steady sound, fun other same => ⟨store.swept other, ?_,
      swept_of_sameRows same sound store⟩⟩
  rw [run_scan_of_plain (plain.of_sameRows same sound) (steady.of_sameRows same sound)
    (same.isSound sound), survey_of_sameRows same sound]

/-- A tree with a release, a release candidate, an old image, one without files, and a file
that is named as a version. -/
def assorted : Tree :=
  written
    [(["images"], .directory ⟨5, 0⟩), (["images", "alpha"], .directory ⟨5, 0⟩),
      (["images", "alpha", "1.0.0"], .directory ⟨5, 0⟩),
      (["images", "alpha", "1.0.0", "vmlinuz"], .file []),
      (["images", "alpha", "1.0.0", "initrd"], .file []),
      (["images", "alpha", "1.0.0-rc.1"], .directory ⟨1, 1⟩),
      (["images", "alpha", "1.0.0-rc.1", "vmlinuz"], .file []),
      (["images", "alpha", "1.0.0-rc.1", "initrd"], .file []),
      (["images", "alpha", "0.9.0"], .directory ⟨1, 0⟩),
      (["images", "alpha", "0.9.0", "vmlinuz"], .file []),
      (["images", "alpha", "0.9.0", "initrd"], .file []),
      (["images", "alpha", "0.1.0"], .file []), (["images", "beta"], .directory ⟨5, 0⟩),
      (["images", "beta", "2.0.0"], .directory ⟨5, 0⟩)]

theorem scan_exact_of_assorted :
    (twoChannels.keptIn assorted "alpha").map Version.render = ["1.0.0", "1.0.0-rc.1"] ∧
      twoChannels.spoiled assorted =
        [["images", "alpha", "0.9.0"], ["images", "beta", "2.0.0"]].map
          (fun names => names.reverse.map octetsOf) ∧
      twoChannels.ScansExactly assorted :=
  ⟨by decide +kernel, by decide +kernel, scan_exact (isPlain_of_looksPlain (by decide +kernel))
    (by decide +kernel) (by decide +kernel)⟩

/-! ### Channels that cannot be relied on -/

/-- A tree in which the root leads through an image without files, up and away from it. -/
def throughImage : Tree :=
  written
    [(["images"], .link (Path.ofString "real/alpha/1.0.0/../..")), (["real"], .directory ⟨5, 0⟩),
      (["real", "alpha"], .directory ⟨5, 0⟩), (["real", "alpha", "1.0.0"], .directory ⟨5, 0⟩),
      (["real", "beta"], .directory ⟨5, 0⟩), (["real", "beta", "2.0.0"], .directory ⟨5, 0⟩),
      (["real", "beta", "2.0.0", "vmlinuz"], .file []),
      (["real", "beta", "2.0.0", "initrd"], .file [])]

/-- A store whose root is written so long that a channel has a path and its images have none. -/
def farAway : ImageStore :=
  ⟨⟨(List.replicate 2039 [0x2F, 0x2E]).flatten ++ octetsOf "/images"⟩, ["alpha"], ["vmlinuz"], ⟨1, 0⟩⟩

/-- A tree with one image. -/
def single : Tree :=
  written
    [(["images"], .directory ⟨5, 0⟩), (["images", "alpha"], .directory ⟨5, 0⟩),
      (["images", "alpha", "1.0.0"], .directory ⟨5, 0⟩),
      (["images", "alpha", "1.0.0", "vmlinuz"], .file [])]

/-- A tree with an old image in which one file is immutable. -/
def immutableFile : Tree :=
  { assorted with
    held := [(["images", "alpha", "0.9.0", "initrd"].reverse.map octetsOf, .immutable)] }

/-- The first scan misses the channel after the one whose image it discarded, and the other two
fail. -/
theorem scan_not_exact :
    (twoChannels.IsPlain throughImage ∧ throughImage.IsSound ∧
        ¬ twoChannels.ScansExactly throughImage) ∧
      (farAway.IsPlain single ∧ single.IsSound ∧ ¬ farAway.ScansExactly single) ∧
      twoChannels.IsPlain immutableFile ∧ immutableFile.IsSound ∧
        ¬ twoChannels.ScansExactly immutableFile := by
  refine ⟨⟨isPlain_of_looksPlain (by decide +kernel), by decide +kernel, ?_⟩,
    ⟨isPlain_of_looksPlain (by decide +kernel), by decide +kernel, ?_⟩,
    isPlain_of_looksPlain (by decide +kernel), by decide +kernel, ?_⟩
  · rintro ⟨index, gone, answer, run, -⟩
    have missed : (twoChannels.scan.run throughImage).1.toOption.bind (·.find? "beta") = some [] := by
      decide +kernel
    rw [run] at missed
    have offers : twoChannels.Offers throughImage "beta" "2.0.0" :=
      ⟨⟨5, 0⟩, by decide +kernel, by decide, List.forall_mem_cons.mpr
        ⟨⟨[], by decide +kernel⟩, List.forall_mem_singleton.mpr ⟨[], by decide +kernel⟩⟩⟩
    cases (answer.listed "beta" [] missed ⟨2, 0, 0, [], []⟩).mpr ⟨"2.0.0", by decide, offers⟩
  · rintro ⟨index, gone, -, run, -⟩
    have fails : (farAway.scan.run single).1.toOption = none := by decide +kernel
    rw [run] at fails
    cases fails
  · rintro ⟨index, gone, -, run, -⟩
    have fails : (twoChannels.scan.run immutableFile).1.toOption = none := by decide +kernel
    rw [run] at fails
    cases fails

end VmFleet.ImageStore
