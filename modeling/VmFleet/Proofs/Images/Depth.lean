/-
This file proves how deep a store reaches. Channels and versions have names of something in a
directory, so each of their directories lies directly in the one above. An accepted artifact has
a name without slashes, which may still be that of the directory itself or of the one above.
Under such a name no file can stand: no directory is complete then, and a scan discards every
image. With other names a directory that has a file for every artifact is complete and is kept.
-/

import VmFleet.Proofs.Boot.Plan
import VmFleet.Proofs.Files.Persistence
import VmFleet.Proofs.Images.Exact

namespace VmFleet

open VmFleet.Text

namespace Path

/-- The path is that of the directory with one proper name after it. -/
structure IsEntryOf (path directory : Path) (name : FileName) : Prop where
  proper : IsProper name
  names : path.names = directory.names ++ [name]
  sameStart : path.isAbsolute = directory.isAbsolute

/-- A joined path is that of an entry exactly if the name is proper. -/
theorem isEntryOf_join_iff {directory : Path} {name : FileName} (nonempty : name ≠ [])
    (whole : slash ∉ name) : (directory.join ⟨name⟩).IsEntryOf directory name ↔ IsProper name :=
  ⟨IsEntryOf.proper, fun proper => ⟨proper, names_join nonempty whole, isAbsolute_join whole⟩⟩

theorem IsProper.isEntryOf_join {name : FileName} (proper : IsProper name) (directory : Path) :
    (directory.join ⟨name⟩).IsEntryOf directory name :=
  (isEntryOf_join_iff proper.nonempty proper.whole).mpr proper

end Path

/-- The name of an accepted artifact is proper but for the two names of directories. -/
theorem Config.isProper_iff_of_isPlainName {artifact : String}
    (plain : Config.isPlainName artifact = true) :
    Path.IsProper (octetsOf artifact) ↔ artifact ≠ "." ∧ artifact ≠ ".." := by
  obtain ⟨nonempty, whole⟩ := ImageStore.whole_of_isPlainName plain
  have here : octetsOf "." = Path.here := by decide +kernel
  have above : octetsOf ".." = Path.above := by decide +kernel
  constructor
  · refine fun proper => ⟨?_, ?_⟩
    · rintro rfl
      exact proper.ne_here here
    · rintro rfl
      exact proper.ne_above above
  · rintro ⟨notHere, notAbove⟩
    exact ⟨nonempty, whole, fun same => notHere (octetsOf_injective (same.trans here.symm)),
      fun same => notAbove (octetsOf_injective (same.trans above.symm))⟩

namespace Tree

variable {tree : Tree} {location : Location} {directory : Path} {name : FileName}
  {names : List FileName}

/-- Put an empty file under each of these names. -/
def furnish (tree : Tree) (location : Location) (names : List FileName) : Tree :=
  names.foldl (fun tree name => tree.add (name :: location) (.file [])) tree

theorem spares_furnish (tree : Tree) (location : Location) (names : List FileName) :
    tree.Spares [] (tree.furnish location names) := by
  induction names generalizing tree with
  | nil => exact tree.spares_self
  | cons name names inductionHypothesis =>
    exact (tree.spares_add (name :: location) (by simp)).trans (inductionHypothesis _)

/-- Where nothing stood a file stands then. -/
theorem kindAt?_furnish (listed : name ∈ names) (free : tree.find? (name :: location) = none) :
    (tree.furnish location names).kindAt? (name :: location) = some (.file []) := by
  induction names generalizing tree with
  | nil => cases listed
  | cons first names inductionHypothesis =>
    have added : (tree.add (first :: location) (.file [])).kindAt? (name :: location) =
        if first = name then some (.file []) else none := by
      rw [kindAt?_add, kindAt?, free]
      simp [Node.kind]
    by_cases same : first = name
    · rw [if_pos same] at added
      exact (spares_furnish _ location names).kept _ _ rfl added
    · rw [if_neg same] at added
      refine inductionHypothesis ((List.mem_cons.mp listed).resolve_left (Ne.symm same)) ?_
      exact Option.map_eq_none_iff.mp added

/-- The path of a directory leads to the file that was put there. -/
theorem isFile_furnish (leads : tree.namesLead [] directory = .ok location)
    (inside : tree.isDirectoryAt location = true) (possible : Path.IsPossible name)
    (listed : name ∈ names) (free : tree.find? (name :: location) = none)
    (accepted : Accepts (directory.join ⟨name⟩)) :
    (tree.furnish location names).isFile [] (directory.join ⟨name⟩) = true := by
  have spares := spares_furnish tree location names
  have leadsStill : (tree.furnish location names).namesLead [] directory = .ok location :=
    walk_eq_ok_iff.mpr (spares.leads rfl (by simp) (walk_eq_ok_iff.mp leads) rfl rfl)
  have insideStill := spares.isDirectoryAt rfl inside
  obtain ⟨node, found, kind⟩ := Option.map_eq_some_iff.mp (kindAt?_furnish listed free)
  obtain ⟨content, rfl⟩ : ∃ content, node = .file content := by
    cases node with
    | file content => exact ⟨content, rfl⟩
    | directory | link | special => cases kind
  have entry := (entry_join_eq_ok possible.proper).mpr
    ⟨⟨accepted, possible.short⟩, location, leadsStill, insideStill, found⟩
  refine (isFile_iff_entry fun target link => ?_).mpr ⟨content, entry⟩
  cases entry.symm.trans link

end Tree

namespace ImageStore

open TreeRequest

variable {store : ImageStore} {tree : Tree} {location : Location} {channel : String}
  {name : FileName} {directory : Path}

/-! ### Artifacts under which no file can stand -/

theorem filterMap_id_of_none {names : List FileName} {kept : List (Option Version)}
    (none : List.Forall₂ (fun _ version => version = none) names kept) :
    kept.filterMap id = [] := by
  induction none with
  | nil => rfl
  | cons same _ inductionHypothesis =>
    subst same
    exact inductionHypothesis

section Impossible

variable (plain : ∀ artifact ∈ store.artifacts, Config.isPlainName artifact = true)

include plain

/-- What is complete has possible names for its artifacts. -/
theorem isPossible_of_isComplete (complete : store.isComplete tree directory = true)
    {artifact : String} (listed : artifact ∈ store.artifacts) :
    Path.IsPossible (octetsOf artifact) := by
  obtain ⟨nonempty, whole⟩ := whole_of_isPlainName (plain artifact listed)
  exact Tree.isPossible_of_isFile nonempty whole (List.all_eq_true.mp complete artifact listed)

variable {artifact : String} (listed : artifact ∈ store.artifacts)
  (impossible : ¬ Path.IsPossible (octetsOf artifact))

include listed impossible

/-- With an impossible name nothing passes. -/
theorem passes_of_impossible (modified : Timestamp) :
    store.passes tree directory name modified = false := by
  unfold passes
  rw [Bool.and_eq_false_iff]
  refine .inr (Bool.eq_false_iff.mpr fun complete => ?_)
  exact impossible (isPossible_of_isComplete plain complete listed)

/-- With an impossible name every entry of a channel is judged to be none. -/
theorem keeps_judge_of_impossible :
    Keeps (fun _ => True) (store.judge directory location name) (· = none) := by
  refine fun tree _ => ⟨trivial, fun value gives => ?_⟩
  rw [run_judge] at gives
  split at gives
  · rw [passes_of_impossible plain listed impossible, if_neg nofun] at gives
    simp only at gives
    rw [run_bind] at gives
    split at gives
    · exact (Except.ok.inj gives).symm
    · cases gives
  · exact (Except.ok.inj gives).symm

/-- With an impossible name no channel has a version. -/
theorem keeps_scanChannel_of_impossible :
    Keeps (fun _ => True) (store.scanChannel channel) (· = []) := by
  refine fun tree _ => ⟨trivial, fun versions gives => ?_⟩
  cases shelf : store.shelf tree channel with
  | error cause =>
    by_cases missing : cause = .noEntry
    · subst missing
      rw [run_scanChannel_of_missing shelf] at gives
      exact (Except.ok.inj gives).symm
    · rw [run_scanChannel_of_error shelf missing] at gives
      cases gives
  | ok entries =>
    obtain ⟨location, names⟩ := entries
    rw [run_scanChannel_of_ok shelf] at gives
    have judged : Keeps (fun _ => True)
        (names.mapM (store.judge (store.channelDirectory channel) location))
        (List.Forall₂ (fun _ kept => kept = none) names) :=
      Keeps.mapM fun _ _ => keeps_judge_of_impossible plain listed impossible
    have whole : Keeps (fun _ => True)
        (names.mapM (store.judge (store.channelDirectory channel) location) >>= fun versions =>
          pure (Version.ascending (versions.filterMap id)) : FileRequest (List Version))
        (· = []) := judged.bind fun kept none => keeps_pure (by
      rw [filterMap_id_of_none none, Version.ascending_nil])
    exact (whole tree trivial).2 versions gives

/-- With an impossible name a scan that succeeds lists nothing. -/
theorem keeps_scan_of_impossible :
    Keeps (fun _ => True) store.scan fun index =>
      ∀ channel versions, index.find? channel = some versions → versions = [] := by
  unfold scan
  refine Keeps.foldlM (fun channel _ index nothing => ?_) nofun
  refine (keeps_scanChannel_of_impossible plain listed impossible).bind fun versions empty => ?_
  refine keeps_pure fun other found => ?_
  rw [Keyed.find?_insert]
  split
  · rintro ⟨⟩
    exact empty
  · exact nothing other found

end Impossible

/-! ### Images with a file for every artifact -/

/-- A channel holds an image that a scan is to keep: a directory that stands for a version and was
changed after the cutoff, with a file under the name of every artifact. The system takes the paths
of these files. -/
structure HoldsImage (store : ImageStore) (tree : Tree) (channel : String) (location : Location)
    (name : FileName) (version : Version) : Prop where
  stands : ∃ names, store.shelf tree channel = .ok (location, names)
  fresh : ∃ modified, versionAt? tree location name = some (modified, version) ∧
    store.staleBefore.isBefore modified = true
  files : ∀ artifact ∈ store.artifacts, ∃ content,
    tree.find? (octetsOf artifact :: name :: location) = some (.file content)
  taken : ∀ artifact ∈ store.artifacts,
    Tree.Accepts (((store.channelDirectory channel).join ⟨name⟩).child artifact)

section Holds

variable (named : Config.isChannelName channel = true) (sound : tree.IsSound) {version : Version}
  (holds : store.HoldsImage tree channel location name version)
  (proper : ∀ artifact ∈ store.artifacts, Path.IsProper (octetsOf artifact))

include named sound holds proper

/-- The path of every artifact leads to its file. -/
theorem HoldsImage.isComplete :
    store.isComplete tree ((store.channelDirectory channel).join ⟨name⟩) = true := by
  obtain ⟨names, shelf⟩ := holds.stands
  obtain ⟨leads, inside, -⟩ := shelf_eq_ok.mp shelf
  obtain ⟨modified, found, -⟩ := holds.fresh
  obtain ⟨directory, stands⟩ := versionAt?_eq_some.mp found
  have versionProper := (isProper_of_versionOf? stands).1
  have channelProper := isProper_of_isChannelName named
  refine List.all_eq_true.mpr fun artifact listed => ?_
  obtain ⟨content, file⟩ := holds.files artifact listed
  have accepted := holds.taken artifact listed
  have artifactProper := proper artifact listed
  -- the system takes the path of the directory, too, which leads to where the image is
  have removable : Removable (store.channelDirectory channel) name :=
    ⟨Tree.accepts_of_join artifactProper.whole
      (Path.octets_join_ne_nil versionProper.nonempty versionProper.whole) accepted,
      sound.length_le directory⟩
  obtain ⟨versionLeads, versionInside⟩ :=
    resolve_version named leads versionProper inside removable directory
  have entry := (Tree.entry_below versionProper.nonempty versionProper.whole versionLeads
    versionInside artifactProper).mpr ⟨⟨accepted, sound.length_le file⟩, file⟩
  have artifactLeads := Tree.resolve_below versionProper.nonempty versionProper.whole versionLeads
    artifactProper entry nofun
  exact Tree.isFile_iff.mpr ⟨_, content, artifactLeads, file⟩

/-- The verdict on the image is to keep it. -/
theorem HoldsImage.kept? :
    store.kept? tree (store.channelDirectory channel) location name = some version := by
  obtain ⟨modified, found, fresh⟩ := holds.fresh
  exact kept?_eq_some.mpr ⟨modified, found, Bool.and_eq_true_iff.mpr
    ⟨fresh, holds.isComplete named sound proper⟩⟩

theorem HoldsImage.run_judge :
    (store.judge (store.channelDirectory channel) location name).run tree =
      (.ok (some version), tree) := by
  have kept := holds.kept? named sound proper
  have stays : store.discards tree (store.channelDirectory channel) location name = false := by
    refine Bool.eq_false_iff.mpr fun gone => ?_
    rw [kept?_of_discards gone] at kept
    cases kept
  rw [run_judge_of_stays stays, kept]

end Holds

/-! ### What can be complete -/

/-- A directory in which nothing stands under the name of an artifact is complete once files are
put there. -/
def FillsDirectories (store : ImageStore) : Prop :=
  ∀ (tree : Tree) (directory : Path) (location : Location),
    tree.namesLead [] directory = .ok location → tree.isDirectoryAt location = true →
    (∀ artifact ∈ store.artifacts, tree.find? (octetsOf artifact :: location) = none ∧
      Tree.Accepts (directory.child artifact)) →
    store.isComplete (tree.furnish location (store.artifacts.map octetsOf)) directory = true

theorem fillsDirectories_of_possible
    (possible : ∀ artifact ∈ store.artifacts, Path.IsPossible (octetsOf artifact)) :
    store.FillsDirectories := by
  intro tree directory location leads inside room
  refine List.all_eq_true.mpr fun artifact listed => ?_
  obtain ⟨free, accepted⟩ := room artifact listed
  exact Tree.isFile_furnish leads inside (possible artifact listed)
    (List.mem_map_of_mem listed) free accepted

/-- Something can be complete exactly if under every artifact a file can stand. -/
theorem exists_isComplete_iff
    (plain : ∀ artifact ∈ store.artifacts, Config.isPlainName artifact = true) :
    (∃ tree directory, store.isComplete tree directory = true) ↔
      ∀ artifact ∈ store.artifacts, Path.IsPossible (octetsOf artifact) := by
  constructor
  · rintro ⟨tree, directory, complete⟩ artifact listed
    exact isPossible_of_isComplete plain complete listed
  · intro possible
    -- files can be put in the root
    refine ⟨_, _, fillsDirectories_of_possible possible (.bare default) ⟨[Path.slash]⟩ [] rfl rfl
      fun artifact listed => ⟨rfl, ?_⟩⟩
    have own := possible artifact listed
    have room : 1 + 1 + Tree.nameLimit ≤ Tree.pathLimit := by decide
    exact Tree.accepts_join own.proper.whole ⟨by decide, nofun, by decide⟩ own.clear
      ((Nat.add_le_add_left own.short _).trans room)

/-! ### Accepted names -/

/-- A scan keeps every image with a file for each artifact when it comes to judge it, and where
the first look holds to the end it lists every such image. -/
def KeepsImages (store : ImageStore) : Prop :=
  ∀ tree : Tree, tree.IsSound → ∀ channel ∈ store.channels, ∀ location name version,
    store.HoldsImage tree channel location name version →
    (store.judge (store.channelDirectory channel) location name).run tree =
        (.ok (some version), tree) ∧
      (store.IsPlain tree → store.IsSteady tree → ∃ index left versions,
        store.scan.run tree = (.ok index, left) ∧ index.find? channel = some versions ∧
          version ∈ versions)

/-- A scan discards every version directory that it meets, and one that succeeds lists nothing. -/
def DiscardsImages (store : ImageStore) : Prop :=
  (∀ tree directory location name,
    store.discards tree directory location name = (versionAt? tree location name).isSome) ∧
  ∀ tree index left, store.scan.run tree = (.ok index, left) →
    ∀ channel versions, index.find? channel = some versions → versions = []

theorem keepsImages_of_proper
    (named : ∀ channel ∈ store.channels, Config.isChannelName channel = true)
    (proper : ∀ artifact ∈ store.artifacts, Path.IsProper (octetsOf artifact)) :
    store.KeepsImages := by
  intro tree sound channel member location name version holds
  have fits := named channel member
  refine ⟨holds.run_judge fits sound proper, fun plain steady => ?_⟩
  refine ⟨_, _, _, run_scan_of_plain plain steady sound,
    (find?_survey channel).trans (if_pos member), ?_⟩
  obtain ⟨names, shelf⟩ := holds.stands
  obtain ⟨modified, found, -⟩ := holds.fresh
  obtain ⟨-, -, rfl⟩ := shelf_eq_ok.mp shelf
  have entry := (Tree.mem_namesAt_iff_find? sound).mpr ⟨_, (versionAt?_eq_some.mp found).1⟩
  rw [Version.mem_ascending, mem_keptIn]
  exact ⟨location, _, name, shelf, entry, holds.kept? fits sound proper⟩

theorem discardsImages_of_impossible
    (plain : ∀ artifact ∈ store.artifacts, Config.isPlainName artifact = true)
    {artifact : String} (listed : artifact ∈ store.artifacts)
    (impossible : ¬ Path.IsPossible (octetsOf artifact)) : store.DiscardsImages := by
  constructor
  · intro tree directory location name
    unfold discards
    cases versionAt? tree location name with
    | none => rfl
    | some found =>
      obtain ⟨modified, version⟩ := found
      simp [passes_of_impossible plain listed impossible]
  · intro tree index left run
    refine (keeps_scan_of_impossible plain listed impossible tree trivial).2 index ?_
    rw [run]

/-- Under a configuration that was loaded each channel lies directly in the store and each version
directly in its channel. An artifact lies directly in its version unless it has the name of the
directory itself or of the one above. Something can be complete exactly if under every artifact a
file can stand; then files make any directory complete and scans keep images, and else scans
discard every image. -/
theorem names_one_level_deep {files : Tree} {place : Location} {path : Path} {config : Config}
    {environment : Environment} (loaded : Config.load files place path = .ok config)
    (stored : config.store? environment = some store) :
    (∀ channel ∈ store.channels,
      (store.channelDirectory channel).IsEntryOf store.root (octetsOf channel) ∧
      ∀ text version, Version.parse? text = some version →
        (store.versionDirectory channel text).IsEntryOf (store.channelDirectory channel)
            (octetsOf text) ∧
          ∀ artifact ∈ store.artifacts,
            ((store.versionDirectory channel text).child artifact).IsEntryOf
                (store.versionDirectory channel text) (octetsOf artifact) ↔
              artifact ≠ "." ∧ artifact ≠ "..") ∧
    ((∃ tree directory, store.isComplete tree directory = true) ↔
      ∀ artifact ∈ store.artifacts, Path.IsPossible (octetsOf artifact)) ∧
    ((∀ artifact ∈ store.artifacts, Path.IsPossible (octetsOf artifact)) →
      store.FillsDirectories) ∧
    ((∀ artifact ∈ store.artifacts, artifact ≠ "." ∧ artifact ≠ "..") → store.KeepsImages) ∧
    ((∃ artifact ∈ store.artifacts, ¬ Path.IsPossible (octetsOf artifact)) →
      store.DiscardsImages) := by
  have configured := Config.isConfigured_of_validate (Config.validate_of_load loaded) stored
  have proper := fun artifact listed =>
    Config.isProper_iff_of_isPlainName (configured.artifactNames artifact listed)
  refine ⟨fun channel member => ⟨?_, fun text version spelt => ⟨?_, fun artifact listed => ?_⟩⟩,
    exists_isComplete_iff configured.artifactNames, fillsDirectories_of_possible,
    fun apart => ?_, ?_⟩
  · exact (isProper_of_isChannelName (configured.channelNames channel member)).isEntryOf_join _
  · exact (isProper_of_versionOf? (versionOf?_octetsOf spelt)).1.isEntryOf_join _
  · obtain ⟨nonempty, whole⟩ := whole_of_isPlainName (configured.artifactNames artifact listed)
    exact (Path.isEntryOf_join_iff nonempty whole).trans (proper artifact listed)
  · exact keepsImages_of_proper configured.channelNames fun artifact listed =>
      (proper artifact listed).mpr (apart artifact listed)
  · rintro ⟨artifact, listed, impossible⟩
    exact discardsImages_of_impossible configured.artifactNames listed impossible

/-- A tree with a configuration that names one artifact, and an image with this file. -/
def inventory (artifact : String) : Tree :=
  written
    [(["fleet.toml"], .file (octetsOf
        ("store_root = \"/images\"\n[images]\nartifacts = [\"" ++ artifact ++ "\"]\n"))),
      (["images"], .directory default), (["images", "alpha"], .directory default),
      (["images", "alpha", "1.0.0"], .directory ⟨1461110401, 0⟩),
      (["images", "alpha", "1.0.0", "vmlinuz"], .file [])]

/-- The configuration that such a tree has. -/
def inventoried (artifact : String) : Config :=
  { Config.standard with storeRoot := some "/images", artifacts := some [artifact] }

/-- The store of that configuration. -/
def stockOf (artifact : String) : ImageStore :=
  ⟨Path.ofString "/images", defaultChannels, [artifact], ⟨1461110400, 0⟩⟩

theorem store?_inventoried (artifact : String) :
    (inventoried artifact).store? ⟨none, none, none, none⟩ = some (stockOf artifact) := by
  have cutoff : (inventoried artifact).cutoff? = some ⟨1461110400, 0⟩ := by
    show (Config.later? 0 formatBreak).map _ = _
    decide
  unfold Config.store?
  rw [cutoff]
  rfl

theorem names_one_level_deep_of_inventory :
    (stockOf "vmlinuz").KeepsImages ∧
      (stockOf "vmlinuz").HoldsImage (inventory "vmlinuz") "alpha"
        [octetsOf "alpha", octetsOf "images"] (octetsOf "1.0.0") ⟨1, 0, 0, [], []⟩ := by
  have loaded : Config.load (inventory "vmlinuz") [] (Path.ofString "/fleet.toml") =
      .ok (inventoried "vmlinuz") := by
    decide +kernel
  obtain ⟨-, -, -, keeps, -⟩ := names_one_level_deep loaded (store?_inventoried "vmlinuz")
  refine ⟨keeps (by decide), ⟨[octetsOf "1.0.0"], by decide +kernel⟩,
    ⟨⟨1461110401, 0⟩, by decide +kernel, by decide⟩, ?_, ?_⟩
  · exact List.forall_mem_singleton.mpr ⟨[], by decide +kernel⟩
  · exact List.forall_mem_singleton.mpr ⟨by decide +kernel, by decide +kernel, by decide +kernel⟩

/-- An artifact may have the name of its directory. Then a scan takes a fresh image away with all
its files. -/
theorem accepts_name_of_directory :
    Config.load (inventory ".") [] (Path.ofString "/fleet.toml") = .ok (inventoried ".") ∧
      ¬ (((stockOf ".").versionDirectory "alpha" "1.0.0").child ".").IsEntryOf
          ((stockOf ".").versionDirectory "alpha" "1.0.0") (octetsOf ".") ∧
      ((stockOf ".").scan.run (inventory ".")).1.toOption.bind (·.find? "alpha") = some [] ∧
      ((stockOf ".").scan.run (inventory ".")).2.nodes.map Prod.fst =
        [[octetsOf "fleet.toml"], [octetsOf "images"], [octetsOf "alpha", octetsOf "images"]] := by
  refine ⟨by decide +kernel, fun entry => entry.proper.ne_here (by decide +kernel),
    by decide +kernel, by decide +kernel⟩

end ImageStore

end VmFleet
