/-
This file proves what a scan does to any tree, whatever links there are in it. It takes
version directories of its channels away and nothing else, its lists ascend, and whatever
it lists had a directory when it began. A path whose directory is gone leads to nothing
from then on, so no scan lists what was taken away before.
-/

import VmFleet.Proofs.Images.Plain

namespace VmFleet

theorem Tree.isDirectoryAt_of_find? {tree : Tree} {location : Location} {modified : Timestamp}
    (found : tree.find? location = some (.directory modified)) :
    tree.isDirectoryAt location = true := by
  unfold isDirectoryAt
  rw [found]

theorem Tree.exists_of_isDirectoryAt {tree : Tree} {location : Location}
    (inside : tree.isDirectoryAt location = true) :
    ∃ modified, tree.find? location = some (.directory modified) := by
  unfold isDirectoryAt at inside
  split at inside
  · rename_i modified found
    exact ⟨modified, found⟩
  · cases inside

namespace ImageStore

open TreeRequest VmFleet.Text

/-- A store as a configuration has it: channels and artifacts have their kinds of names, and
there is an artifact. -/
structure IsConfigured (store : ImageStore) : Prop where
  channelNames : ∀ channel ∈ store.channels, Config.isChannelName channel = true
  artifactNames : ∀ artifact ∈ store.artifacts, Config.isPlainName artifact = true
  nonempty : store.artifacts ≠ []

variable {store : ImageStore} {tree left : Tree} {channel text : String} {place : Location}

/-! ### Version directories -/

/-- A place holds a version directory of the store: its name spells a version, and it lies in
the directory that a channel leads to. -/
def IsVersionPlace (store : ImageStore) (tree : Tree) (place : Location) : Prop :=
  ∃ channel ∈ store.channels, ∃ location name version,
    tree.resolve ⟨true, false⟩ [] (store.channelDirectory channel) = .ok location ∧
      versionOf? name = some version ∧ place = name :: location ∧ tree.isDirectoryAt place = true

/-- What may go of a version directory: all of it, or a part where the system holds on to something
in it. -/
def IsVersionPart (store : ImageStore) (tree : Tree) (place : Location) : Prop :=
  store.IsVersionPlace tree place ∨ ∃ top, store.IsVersionPlace tree top ∧
    tree.holdsIn top = true ∧ top <:+ place ∧ place ≠ top

/-- Version directories of the store are taken away, wholly or until it sticks, and nothing else. -/
def Clears (store : ImageStore) (tree left : Tree) : Prop :=
  ∃ gone, (∀ place ∈ gone, store.IsVersionPart tree place) ∧ left = tree.without gone

/-- The path of a version leads to a directory. -/
def Stands (store : ImageStore) (tree : Tree) (channel text : String) : Prop :=
  ∃ place, tree.resolve ⟨false, false⟩ [] (store.versionDirectory channel text) = .ok place ∧
    tree.isDirectoryAt place = true

/-- The path of a version leads to nothing. -/
def Lacks (store : ImageStore) (tree : Tree) (channel text : String) : Prop :=
  tree.resolve ⟨false, false⟩ [] (store.versionDirectory channel text) = .error .noEntry

/-- The system holds on to nothing in the directory of a version. -/
def Yields (store : ImageStore) (tree : Tree) (channel text : String) : Prop :=
  ∀ place, tree.resolve ⟨false, false⟩ [] (store.versionDirectory channel text) = .ok place →
    tree.holdsIn place = false

/-- The path of a version leads to a directory or to nothing, so it can be deleted. -/
def Deletable (store : ImageStore) (tree : Tree) (channel text : String) : Prop :=
  store.Stands tree channel text ∨ store.Lacks tree channel text

/-- It sticks to take away the directory of a version: no more than a part of what is in it goes. -/
def SticksIn (store : ImageStore) (tree : Tree) (channel text : String) (cause : Cause)
    (left : Tree) : Prop :=
  ∃ place, tree.resolve ⟨false, false⟩ [] (store.versionDirectory channel text) = .ok place ∧
    tree.isDirectoryAt place = true ∧ left.isDirectoryAt place = true ∧
    tree.Sticks place cause left

theorem IsVersionPlace.ne_nil (version : store.IsVersionPlace tree place) : place ≠ [] := by
  obtain ⟨_, -, _, _, _, -, -, rfl, -⟩ := version
  exact List.cons_ne_nil _ _

theorem IsVersionPart.ne_nil (part : store.IsVersionPart tree place) : place ≠ [] := by
  rcases part with version | ⟨top, version, -, below, -⟩
  · exact version.ne_nil
  · rintro rfl
    exact version.ne_nil (List.suffix_nil.mp below)

theorem nil_not_mem_of_versionParts {gone : List Location}
    (parts : ∀ place ∈ gone, store.IsVersionPart tree place) : [] ∉ gone :=
  fun member => (parts [] member).ne_nil rfl

/-- A directory that is left was one before. -/
theorem isDirectoryAt_of_without {gone : List Location} (proper : place ≠ [])
    (stands : (tree.without gone).isDirectoryAt place = true) :
    tree.isDirectoryAt place = true := by
  cases under : Tree.isUnder gone place with
  | true =>
    unfold Tree.isDirectoryAt at stands
    rw [Tree.find?_without_of_isUnder tree proper under] at stands
    cases stands
  | false => exact (Tree.isDirectoryAt_without under).symm.trans stands

section Clears

/-- Once version directories are gone a path leads to nothing, or where it led before. -/
theorem Clears.resolve_cases (clears : store.Clears tree left) (last : LastStep)
    (needed : last.absent = false) (path : Path) :
    left.resolve last [] path = .error .noEntry ∨
      left.resolve last [] path = tree.resolve last [] path ∧
        ∀ location, left.resolve last [] path = .ok location →
          left.isDirectoryAt location = tree.isDirectoryAt location := by
  obtain ⟨gone, parts, rfl⟩ := clears
  rcases Tree.resolve_without tree last needed (nil_not_mem_of_versionParts parts) path with
    missing | ⟨same, kept⟩
  · exact .inl missing
  · exact .inr ⟨same, fun location leads => Tree.isDirectoryAt_without (kept location leads)⟩

/-- What a path still leads to is what it led to. -/
theorem Clears.resolve_of_ok (clears : store.Clears tree left) {last : LastStep}
    (needed : last.absent = false) {path : Path} {location : Location}
    (leads : left.resolve last [] path = .ok location) :
    tree.resolve last [] path = .ok location ∧
      left.isDirectoryAt location = tree.isDirectoryAt location := by
  rcases clears.resolve_cases last needed path with missing | ⟨same, directory⟩
  · rw [missing] at leads
    cases leads
  · exact ⟨same.symm.trans leads, directory location leads⟩

/-- A path that still leads to a directory leads where it led. -/
theorem Clears.resolve_eq (clears : store.Clears tree left) {path : Path} {location : Location}
    (leads : tree.resolve ⟨true, false⟩ [] path = .ok location)
    (inside : tree.isDirectoryAt location = true) (other : Location)
    (still : left.resolve ⟨true, false⟩ [] path = .ok other) :
    other = location ∧ left.isDirectoryAt location = true := by
  obtain ⟨before, same⟩ := clears.resolve_of_ok rfl still
  obtain rfl := Except.ok.inj (before.symm.trans leads)
  exact ⟨rfl, same.trans inside⟩

theorem clears_self (store : ImageStore) (tree : Tree) : store.Clears tree tree :=
  ⟨[], nofun, Tree.without_nil.symm⟩

theorem Clears.isVersionPlace (clears : store.Clears tree left)
    (version : store.IsVersionPlace left place) : store.IsVersionPlace tree place := by
  have proper := version.ne_nil
  obtain ⟨channel, member, location, name, spelt, leads, stands, rfl, directory⟩ := version
  refine ⟨channel, member, location, name, spelt, (clears.resolve_of_ok rfl leads).1, stands, rfl, ?_⟩
  obtain ⟨gone, -, rfl⟩ := clears
  exact isDirectoryAt_of_without proper directory

theorem Clears.held (clears : store.Clears tree left) : left.held = tree.held := by
  obtain ⟨gone, -, rfl⟩ := clears
  rfl

theorem Clears.isVersionPart (clears : store.Clears tree left)
    (part : store.IsVersionPart left place) : store.IsVersionPart tree place := by
  rcases part with version | ⟨top, version, held, below⟩
  · exact .inl (clears.isVersionPlace version)
  · refine .inr ⟨top, clears.isVersionPlace version, ?_, below⟩
    unfold Tree.holdsIn
    rwa [← clears.held]

theorem Clears.trans {last : Tree} (clears : store.Clears tree left)
    (further : store.Clears left last) : store.Clears tree last := by
  obtain ⟨others, parts, rfl⟩ := further
  have earlier := fun place member => clears.isVersionPart (parts place member)
  obtain ⟨gone, first, rfl⟩ := clears
  refine ⟨gone ++ others, fun place member => ?_, Tree.without_without⟩
  exact (List.mem_append.mp member).elim (first place) (earlier place)

/-- One version directory is taken away. -/
theorem clears_prune (version : store.IsVersionPlace tree place) :
    store.Clears tree (tree.prune place) :=
  ⟨[place], List.forall_mem_singleton.mpr (.inl version), tree.prune_eq_without place⟩

/-- It sticks to take one version directory away. -/
theorem clears_of_sticks (version : store.IsVersionPlace tree place) {cause : Cause}
    (sticks : tree.Sticks place cause left) : store.Clears tree left := by
  have held := sticks.holdsIn
  obtain ⟨-, gone, inner, rfl⟩ := sticks
  exact ⟨gone, fun other member => .inr ⟨place, version, held, inner other member⟩, rfl⟩

theorem Clears.isSound (clears : store.Clears tree left) (sound : tree.IsSound) : left.IsSound := by
  obtain ⟨gone, -, rfl⟩ := clears
  exact sound.without gone

/-- What was missing stays missing. -/
theorem Clears.lacks (clears : store.Clears tree left) (lacks : store.Lacks tree channel text) :
    store.Lacks left channel text := by
  rcases clears.resolve_cases ⟨false, false⟩ rfl (store.versionDirectory channel text) with
    missing | ⟨same, -⟩
  · exact missing
  · exact same.trans lacks

/-- What still stands stood before. -/
theorem Clears.stands (clears : store.Clears tree left) (stands : store.Stands left channel text) :
    store.Stands tree channel text := by
  obtain ⟨place, leads, directory⟩ := stands
  obtain ⟨before, same⟩ := clears.resolve_of_ok rfl leads
  exact ⟨place, before, same.symm.trans directory⟩

theorem Clears.deletable (clears : store.Clears tree left)
    (deletable : store.Deletable tree channel text) : store.Deletable left channel text := by
  rcases deletable with ⟨place, leads, directory⟩ | lacks
  · rcases clears.resolve_cases ⟨false, false⟩ rfl (store.versionDirectory channel text) with
      missing | ⟨same, directories⟩
    · exact .inr missing
    · have still := same.trans leads
      exact .inl ⟨place, still, (directories place still).trans directory⟩
  · exact .inr (clears.lacks lacks)

end Clears

theorem Yields.without (yields : store.Yields tree channel text) {gone : List Location}
    (proper : [] ∉ gone) : store.Yields (tree.without gone) channel text := by
  intro place leads
  exact yields place ((Tree.resolve_without tree ⟨false, false⟩ rfl proper _).eq_of_ok leads).1

theorem SticksIn.not_yields {cause : Cause} (sticks : store.SticksIn tree channel text cause left) :
    ¬ store.Yields tree channel text := by
  obtain ⟨place, leads, -, -, sticks⟩ := sticks
  intro yields
  have held := sticks.holdsIn
  rw [yields place leads] at held
  cases held

theorem SticksIn.isSound {cause : Cause} (sticks : store.SticksIn tree channel text cause left)
    (sound : tree.IsSound) : left.IsSound := by
  obtain ⟨-, -, -, -, -, gone, -, rfl⟩ := sticks
  exact sound.without gone

theorem not_lacks_of_stands (stands : store.Stands tree channel text) :
    ¬ store.Lacks tree channel text := by
  obtain ⟨place, leads, -⟩ := stands
  intro lacks
  cases leads.symm.trans lacks

theorem Lacks.entry (lacks : store.Lacks tree channel text) :
    tree.entry [] (store.versionDirectory channel text) = .error .noEntry := by
  have missing : tree.resolve ⟨false, false⟩ [] (store.versionDirectory channel text) =
      .error .noEntry := lacks
  unfold Tree.entry
  rw [missing]
  rfl

/-! ### Paths of versions -/

section Path

variable (configured : store.IsConfigured) (member : channel ∈ store.channels)

include configured member

/-- A path that goes on from a channel to anything goes through what the channel leads to. -/
theorem resolve_channel_of_ok {last : LastStep} {name : FileName} (proper : Path.IsProper name)
    (leads : tree.resolve last [] ((store.channelDirectory channel).join ⟨name⟩) = .ok place) :
    ∃ location, tree.namesLead [] (store.channelDirectory channel) = .ok location ∧
      tree.resolve ⟨true, false⟩ [] (store.channelDirectory channel) = .ok location := by
  have channelProper := isProper_of_isChannelName (configured.channelNames channel member)
  have accepted := Tree.accepts_of_resolve leads
  have accepts := Tree.accepts_of_join proper.whole
    (Path.octets_join_ne_nil channelProper.nonempty channelProper.whole) accepted
  rcases Tree.resolve_join tree last [] proper.nonempty proper.whole accepted with
    ⟨cause, -, failed⟩ | ⟨location, links, reached, -⟩
  · cases failed.symm.trans leads
  · exact ⟨location, reached,
      (Tree.namesLead_join tree [] channelProper.nonempty channelProper.whole accepts).symm.trans
        reached⟩

/-- Where the path of a version leads to a directory, it is a version directory of its channel. -/
theorem isVersionPlace_of_resolve {name : FileName} {version : Version}
    (spelt : versionOf? name = some version)
    (leads : tree.resolve ⟨false, false⟩ [] ((store.channelDirectory channel).join ⟨name⟩) =
      .ok place) (directory : tree.isDirectoryAt place = true) :
    store.IsVersionPlace tree place := by
  have proper := (isProper_of_versionOf? spelt).1
  obtain ⟨location, reached, channelLeads⟩ :=
    resolve_channel_of_ok configured member proper leads
  obtain ⟨-, other, again, -, rfl, -⟩ := (Tree.resolve_join_eq_ok proper).mp leads
  obtain rfl := Except.ok.inj (reached.symm.trans again)
  exact ⟨channel, member, location, name, version, channelLeads, spelt, rfl, directory⟩

/-- Where it sticks to take a version away, a part of its directory may be gone. -/
theorem SticksIn.clears {version : Version} (spelt : Version.parse? text = some version)
    {cause : Cause} (sticks : store.SticksIn tree channel text cause left) :
    store.Clears tree left := by
  obtain ⟨place, leads, directory, -, sticks⟩ := sticks
  exact clears_of_sticks (isVersionPlace_of_resolve configured member (versionOf?_octetsOf spelt)
    leads directory) sticks

/-- The path of a directory that holds its artifacts leads to it. -/
theorem resolve_of_isComplete {location : Location} {name : FileName} {version : Version}
    (sound : tree.IsSound) (spelt : versionOf? name = some version)
    (holds : ∀ other, tree.resolve ⟨true, false⟩ [] (store.channelDirectory channel) = .ok other →
      other = location ∧ tree.isDirectoryAt location = true)
    {modified : Timestamp} (found : tree.find? (name :: location) = some (.directory modified))
    (complete : store.isComplete tree ((store.channelDirectory channel).join ⟨name⟩) = true) :
    tree.resolve ⟨false, false⟩ [] ((store.channelDirectory channel).join ⟨name⟩) =
      .ok (name :: location) := by
  have proper := (isProper_of_versionOf? spelt).1
  obtain ⟨artifact, listed⟩ := List.exists_mem_of_ne_nil _ configured.nonempty
  obtain ⟨nonempty, whole⟩ := whole_of_isPlainName (configured.artifactNames artifact listed)
  -- the path of an artifact goes through the path of its directory
  obtain ⟨target, -, inner, -⟩ :=
    Tree.isFile_iff.mp (List.all_eq_true.mp complete artifact listed)
  have accepted := Tree.accepts_of_join whole
    (Path.octets_join_ne_nil proper.nonempty proper.whole) (Tree.accepts_of_resolve inner)
  rcases Tree.resolve_join tree ⟨true, false⟩ [] nonempty whole (Tree.accepts_of_resolve inner) with
    ⟨cause, -, failed⟩ | ⟨directory, links, reached, -⟩
  · cases failed.symm.trans inner
  have outer := (Tree.namesLead_join tree [] proper.nonempty proper.whole accepted).symm.trans reached
  obtain ⟨other, channelReached, channelLeads⟩ :=
    resolve_channel_of_ok configured member proper outer
  obtain ⟨rfl, inside⟩ := holds other channelLeads
  refine (Tree.resolve_join_eq_ok proper).mpr
    ⟨⟨accepted, sound.length_le found⟩, other, channelReached, inside, rfl, ?_⟩
  rw [found]
  exact nofun

end Path

/-! ### What a scan keeps -/

/-- Of each listed version, what is said of its channel and its text. -/
structure Indexes (store : ImageStore) (There : String → String → Prop) (index : ImageIndex) :
    Prop where
  channels : ∀ channel versions, index.find? channel = some versions → channel ∈ store.channels
  ascending : ∀ channel versions, index.find? channel = some versions →
    versions.Pairwise (Version.order · · = .lt)
  spelt : ∀ channel versions, index.find? channel = some versions → ∀ version ∈ versions,
    Version.parse? version.render = some version
  there : ∀ channel versions, index.find? channel = some versions → ∀ version ∈ versions,
    There channel version.render

theorem indexes_empty (store : ImageStore) (There : String → String → Prop) :
    store.Indexes There Keyed.empty :=
  ⟨nofun, nofun, nofun, nofun⟩

theorem Indexes.mono {There Elsewhere : String → String → Prop} {index : ImageIndex}
    (indexes : store.Indexes There index)
    (implies : ∀ {channel text}, There channel text → Elsewhere channel text) :
    store.Indexes Elsewhere index :=
  ⟨indexes.channels, indexes.ascending, indexes.spelt,
    fun channel versions found version listed =>
      implies (indexes.there channel versions found version listed)⟩

/-- A channel is given a list. -/
theorem Indexes.insert {There : String → String → Prop} {index : ImageIndex}
    (indexes : store.Indexes There index) (member : channel ∈ store.channels)
    {versions : List Version} (ascending : versions.Pairwise (Version.order · · = .lt))
    (each : ∀ version ∈ versions,
      Version.parse? version.render = some version ∧ There channel version.render) :
    store.Indexes There (index.insert channel versions) := by
  have found : ∀ other others, (index.insert channel versions).find? other = some others →
      other = channel ∧ others = versions ∨ index.find? other = some others := by
    intro other others listed
    rw [Keyed.find?_insert] at listed
    split at listed
    · rename_i same
      exact .inl ⟨same.symm, (Option.some.inj listed).symm⟩
    · exact .inr listed
  refine ⟨fun other others listed => ?_, fun other others listed => ?_,
    fun other others listed => ?_, fun other others listed => ?_⟩
  all_goals rcases found other others listed with ⟨rfl, rfl⟩ | before
  · exact member
  · exact indexes.channels other others before
  · exact ascending
  · exact indexes.ascending other others before
  · exact fun version inside => (each version inside).1
  · exact indexes.spelt other others before
  · exact fun version inside => (each version inside).2
  · exact indexes.there other others before

/-- What is kept of an entry is the version that it stands for. -/
theorem exists_of_mem_kept {Gives : FileName → Option Version → Prop} {names : List FileName}
    {kept : List (Option Version)} (gives : List.Forall₂ Gives names kept) {version : Version}
    (member : version ∈ kept.filterMap id) : ∃ name ∈ names, Gives name (some version) := by
  induction gives with
  | nil => cases member
  | @cons name verdict names kept here _ inductionHypothesis =>
    cases verdict with
    | none =>
      obtain ⟨other, inside, gives⟩ := inductionHypothesis (by simpa using member)
      exact ⟨other, List.mem_cons_of_mem _ inside, gives⟩
    | some first =>
      rcases List.mem_cons.mp (by simpa using member : version ∈ first :: kept.filterMap id) with
        rfl | later
      · exact ⟨name, List.mem_cons_self, here⟩
      · obtain ⟨other, inside, gives⟩ := inductionHypothesis later
        exact ⟨other, List.mem_cons_of_mem _ inside, gives⟩

/-- Different names stand for different versions. -/
theorem nodup_kept {Gives : FileName → Option Version → Prop} {names : List FileName}
    {kept : List (Option Version)} (gives : List.Forall₂ Gives names kept)
    (spell : ∀ name version, Gives name (some version) → versionOf? name = some version)
    (once : names.Nodup) : (kept.filterMap id).Nodup := by
  induction gives with
  | nil => exact List.nodup_nil
  | @cons name verdict names kept here later inductionHypothesis =>
    obtain ⟨apart, others⟩ := List.nodup_cons.mp once
    cases verdict with
    | none => simpa using inductionHypothesis others
    | some version =>
      refine List.nodup_cons.mpr ⟨fun again => ?_, inductionHypothesis others⟩
      obtain ⟨other, inside, gives⟩ := exists_of_mem_kept later again
      refine apart ?_
      rwa [(eq_octetsOf_of_versionOf? (spell name version here)).1,
        ← (eq_octetsOf_of_versionOf? (spell other version gives)).1]

/-- What a channel lists is in order and stood before, if each verdict keeps what stood. -/
theorem ascending_of_kept {names : List FileName} {kept : List (Option Version)}
    (gives : List.Forall₂ (fun name verdict => ∀ version, verdict = some version →
      versionOf? name = some version ∧ store.Stands tree channel version.render) names kept)
    (once : names.Nodup) :
    (Version.ascending (kept.filterMap id)).Pairwise (Version.order · · = .lt) ∧
      ∀ version ∈ Version.ascending (kept.filterMap id),
        Version.parse? version.render = some version ∧
          store.Stands tree channel version.render := by
  constructor
  · exact Version.pairwise_ascending
      (nodup_kept gives (fun _ version gives => (gives version rfl).1) once)
  · intro version listed
    obtain ⟨name, -, gives⟩ := exists_of_mem_kept gives (Version.mem_ascending.mp listed)
    obtain ⟨spelt, stands⟩ := gives version rfl
    exact ⟨(eq_octetsOf_of_versionOf? spelt).2, stands⟩

section Scan

variable (configured : store.IsConfigured) (sound : tree.IsSound)

include configured sound

/-- Judging an entry takes at most this entry away, and what it keeps stood before. -/
theorem keeps_judge (member : channel ∈ store.channels) {location : Location}
    (leads : tree.resolve ⟨true, false⟩ [] (store.channelDirectory channel) = .ok location)
    (inside : tree.isDirectoryAt location = true) (name : FileName) :
    Keeps (store.Clears tree) (store.judge (store.channelDirectory channel) location name)
      fun kept => ∀ version, kept = some version →
        versionOf? name = some version ∧ store.Stands tree channel version.render := by
  intro present clears
  have channelLeads := clears.resolve_eq leads inside
  cases gone : store.discards present (store.channelDirectory channel) location name with
  | false =>
    rw [run_judge_of_stays gone]
    refine ⟨clears, ?_⟩
    rintro _ ⟨⟩ version kept
    obtain ⟨modified, candidate, passes⟩ := kept?_eq_some.mp kept
    obtain ⟨found, spelt⟩ := versionAt?_eq_some.mp candidate
    refine ⟨spelt, clears.stands ⟨name :: location, ?_, Tree.isDirectoryAt_of_find? found⟩⟩
    rw [versionDirectory_render store channel spelt]
    exact resolve_of_isComplete configured member (clears.isSound sound) spelt channelLeads found
      (Bool.and_eq_true_iff.mp passes).2
  | true =>
    obtain ⟨modified, version, candidate, -⟩ := discards_iff.mp gone
    obtain ⟨found, spelt⟩ := versionAt?_eq_some.mp candidate
    cases reached : present.resolve ⟨false, false⟩ []
        ((store.channelDirectory channel).join ⟨name⟩) with
    | error cause =>
      obtain ⟨error, failed⟩ := run_judge_of_refused gone reached
      rw [failed]
      refine ⟨clears, ?_⟩
      rintro _ ⟨⟩
    | ok place =>
      have proper := (isProper_of_versionOf? spelt).1
      obtain ⟨other, outer, still⟩ := resolve_channel_of_ok configured member proper reached
      obtain ⟨-, again, outer', -, rfl, -⟩ := (Tree.resolve_join_eq_ok proper).mp reached
      obtain rfl := Except.ok.inj (outer.symm.trans outer')
      obtain ⟨rfl, -⟩ := channelLeads other still
      have version := isVersionPlace_of_resolve configured member spelt reached
        (Tree.isDirectoryAt_of_find? found)
      rcases run_judge_of_discards gone reached with
        removed | ⟨error, cause, left, stuck, sticks⟩
      · rw [removed]
        exact ⟨clears.trans (clears_prune version), by rintro _ ⟨⟩ _ ⟨⟩⟩
      · rw [stuck]
        exact ⟨clears.trans (clears_of_sticks version sticks), nofun⟩

/-- Scanning a channel takes version directories away, and what it lists stood before. -/
theorem keeps_scanChannel (member : channel ∈ store.channels) :
    Keeps (store.Clears tree) (store.scanChannel channel) fun versions =>
      versions.Pairwise (Version.order · · = .lt) ∧ ∀ version ∈ versions,
        Version.parse? version.render = some version ∧ store.Stands tree channel version.render := by
  intro present clears
  cases shelf : store.shelf present channel with
  | error cause =>
    by_cases missing : cause = .noEntry
    · subst missing
      rw [run_scanChannel_of_missing shelf]
      refine ⟨clears, ?_⟩
      rintro _ ⟨⟩
      exact ⟨List.Pairwise.nil, nofun⟩
    · rw [run_scanChannel_of_error shelf missing]
      exact ⟨clears, nofun⟩
  | ok entries =>
    obtain ⟨location, names⟩ := entries
    obtain ⟨leads, inside, rfl⟩ := shelf_eq_ok.mp shelf
    have once : (present.namesAt location).Nodup := (clears.isSound sound).nodup_namesAt
    rw [run_scanChannel_of_ok shelf]
    have judges := Keeps.mapM fun name (_ : name ∈ present.namesAt location) =>
      keeps_judge configured (clears.isSound sound) member leads inside name
    have listing : Keeps (store.Clears present) _ fun versions : List Version =>
        versions.Pairwise (Version.order · · = .lt) ∧ ∀ version ∈ versions,
          Version.parse? version.render = some version ∧
            store.Stands present channel version.render :=
      judges.bind fun _ gives => keeps_pure (ascending_of_kept gives once)
    have ⟨left, lists⟩ := listing present (clears_self store present)
    refine ⟨clears.trans left, fun versions same => ?_⟩
    obtain ⟨ascending, each⟩ := lists versions same
    exact ⟨ascending, fun version listed => (each version listed).imp_right clears.stands⟩

/-- A scan takes version directories away, and what it lists stood when it began. -/
theorem keeps_scan : Keeps (store.Clears tree) store.scan (store.Indexes (store.Stands tree)) :=
  Keeps.foldlM (fun _ member _ indexes =>
    (keeps_scanChannel configured sound member).bind fun _ ⟨ascending, each⟩ =>
      keeps_pure (indexes.insert member ascending each)) (indexes_empty store _)

end Scan

/-! ### Taking one version away -/

/-- The tree without what stands at a path. -/
def lacking (tree : Tree) (path : Path) : Tree :=
  match tree.resolve ⟨false, false⟩ [] path with
  | .ok place => tree.prune place
  | .error _ => tree

/-- What is gone, or was not there, counts as deleted. -/
theorem run_deleteVersion_of_gone {version : Version} {outcome : Except Cause Unit}
    (ran : (removeAll [] (store.versionDirectory channel version.render)).run tree = (outcome, left))
    (gone : outcome = .ok () ∨ outcome = .error .noEntry) :
    (store.deleteVersion channel version).run tree = (.ok (), left) := by
  unfold deleteVersion
  rw [run_bind, run_attempt, ran]
  rcases gone with rfl | rfl <;> rfl

theorem run_deleteVersion_of_refused {version : Version} {cause : Cause}
    (ran : (removeAll [] (store.versionDirectory channel version.render)).run tree =
      (.error cause, left)) (other : cause ≠ .noEntry) :
    (store.deleteVersion channel version).run tree =
      (.error (.io ("removing " ++ (store.versionDirectory channel version.render).display) cause),
        left) := by
  unfold deleteVersion
  rw [run_bind, run_attempt, ran]
  cases cause <;> first | rfl | exact absurd rfl other

/-- The directory of a version is taken away, or it is missing already, or it sticks. -/
theorem run_deleteVersion_cases {version : Version}
    (deletable : store.Deletable tree channel version.render) :
    (store.deleteVersion channel version).run tree =
        (.ok (), lacking tree (store.versionDirectory channel version.render)) ∨
      ∃ cause left, (store.deleteVersion channel version).run tree =
          (.error (.io
            ("removing " ++ (store.versionDirectory channel version.render).display) cause), left) ∧
        store.SticksIn tree channel version.render cause left := by
  unfold lacking
  rcases deletable with ⟨place, leads, directory⟩ | lacks
  · obtain ⟨modified, found⟩ := Tree.exists_of_isDirectoryAt directory
    rw [leads]
    rcases removes_removeAll leads found with removed | ⟨cause, left, stuck, sticks⟩
    · exact .inl (run_deleteVersion_of_gone removed (.inl rfl))
    · exact .inr ⟨cause, left, run_deleteVersion_of_refused stuck sticks.cause_ne, place, leads,
        directory, sticks.isDirectoryAt.trans directory, sticks⟩
  · have lacks : tree.resolve ⟨false, false⟩ [] (store.versionDirectory channel version.render) =
        .error .noEntry := lacks
    rw [lacks]
    exact .inl (run_deleteVersion_of_gone (run_removeAll_of_error lacks) (.inr rfl))

/-- Where the system holds on to nothing in it, the directory of a version is taken away. -/
theorem run_deleteVersion {version : Version}
    (deletable : store.Deletable tree channel version.render)
    (yields : store.Yields tree channel version.render) :
    (store.deleteVersion channel version).run tree =
      (.ok (), lacking tree (store.versionDirectory channel version.render)) := by
  refine (run_deleteVersion_cases deletable).resolve_right ?_
  rintro ⟨cause, left, -, sticks⟩
  exact sticks.not_yields yields

/-- Without what a path leads to, the path leads to nothing. -/
theorem lacks_prune (proper : place ≠ [])
    (leads : tree.resolve ⟨false, false⟩ [] (store.versionDirectory channel text) = .ok place) :
    store.Lacks (tree.prune place) channel text := by
  have inside : [] ∉ [place] := fun member => proper (List.mem_singleton.mp member).symm
  rw [tree.prune_eq_without]
  rcases Tree.resolve_without tree ⟨false, false⟩ rfl inside
    (store.versionDirectory channel text) with missing | ⟨same, kept⟩
  · exact missing
  · have stays := kept place (same.trans leads)
    have under : Tree.isUnder [place] place = true :=
      Tree.isUnder_iff.mpr ⟨_, List.mem_singleton_self _, List.suffix_refl _⟩
    rw [under] at stays
    cases stays

/-- Afterwards it is missing, and no more than version directories were taken away. -/
theorem clears_lacking (configured : store.IsConfigured) (member : channel ∈ store.channels)
    {version : Version} (spelt : Version.parse? text = some version)
    (deletable : store.Deletable tree channel text) :
    store.Clears tree (lacking tree (store.versionDirectory channel text)) ∧
      store.Lacks (lacking tree (store.versionDirectory channel text)) channel text := by
  unfold lacking
  rcases deletable with ⟨place, leads, directory⟩ | lacks
  · have stands := isVersionPlace_of_resolve configured member (versionOf?_octetsOf spelt) leads
      directory
    rw [leads]
    exact ⟨clears_prune stands, lacks_prune stands.ne_nil leads⟩
  · have missing : tree.resolve ⟨false, false⟩ [] (store.versionDirectory channel text) =
        .error .noEntry := lacks
    rw [missing]
    exact ⟨clears_self store tree, lacks⟩

end ImageStore

end VmFleet
