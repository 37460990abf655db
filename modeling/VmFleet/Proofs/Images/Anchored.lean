/-
This file proves what is left of a store when version directories are taken away. They all
lie at one depth, so none holds another. If the paths of the channels do not lead through
them either, every channel has the entries that are left, and a version directory that is
left holds what it held, so it is complete if it was.
-/

import VmFleet.Proofs.Files.Enumeration
import VmFleet.Proofs.Images.Rescan

namespace VmFleet.ImageStore

open VmFleet.Text

/-- The places lie in the directories that the channels have in the root. -/
def InChannels (store : ImageStore) (tree : Tree) (places : List Location) : Prop :=
  ∀ place ∈ places, ∃ channel ∈ store.channels, ∃ root name,
    tree.namesLead [] store.root = .ok root ∧ place = name :: octetsOf channel :: root

/-- Without the places every channel leads where it led. -/
def IsAnchored (store : ImageStore) (tree : Tree) (places : List Location) : Prop :=
  ∀ channel ∈ store.channels,
    (tree.without places).resolve ⟨true, false⟩ [] (store.channelDirectory channel) =
      tree.resolve ⟨true, false⟩ [] (store.channelDirectory channel)

variable {store : ImageStore} {tree : Tree} {places others : List Location} {channel : String}

instance : Decidable (store.IsAnchored tree places) :=
  inferInstanceAs (Decidable (∀ channel ∈ store.channels, _ = _))

theorem InChannels.nil_not_mem (within : store.InChannels tree places) : [] ∉ places := by
  intro member
  obtain ⟨_, -, _, _, -, same⟩ := within [] member
  cases same

/-- While some of the places are left the channels lead where they led, too. -/
theorem IsAnchored.of_subset (anchored : store.IsAnchored tree others) (proper : [] ∉ others)
    (subset : places ⊆ others) : store.IsAnchored tree places :=
  fun channel member =>
    Tree.resolve_of_subset tree rfl proper subset (anchored channel member)

/-- When some of the places are gone, the others still make no difference to the channels. -/
theorem IsAnchored.without (anchored : store.IsAnchored tree others) (proper : [] ∉ others)
    (subset : places ⊆ others) : store.IsAnchored (tree.without places) others := by
  intro channel member
  rw [← Tree.without_of_subset subset, anchored.of_subset proper subset channel member]
  exact anchored channel member

/-! ### Depth -/

section Depth

variable (within : store.InChannels tree places) {root : Location}
  (reached : tree.namesLead [] store.root = .ok root) {name : FileName}

include within reached

/-- Of the version directories just those are gone that were taken away by themselves. -/
theorem InChannels.isUnder_iff : Tree.isUnder places (name :: octetsOf channel :: root) = true ↔
    name :: octetsOf channel :: root ∈ places := by
  rw [Tree.isUnder_iff]
  constructor
  · rintro ⟨place, inside, below⟩
    obtain ⟨other, -, root', name', reached', rfl⟩ := within place inside
    obtain rfl := Except.ok.inj (reached.symm.trans reached')
    -- both lie at one depth, so they are the same
    rwa [← below.eq_of_length (by simp)]
  · exact fun inside => ⟨_, inside, List.suffix_refl _⟩

/-- A version directory that is not taken away is not in one that is. -/
theorem InChannels.not_isUnder (stays : name :: octetsOf channel :: root ∉ places) :
    Tree.isUnder places (name :: octetsOf channel :: root) = false :=
  Bool.eq_false_iff.mpr (mt (within.isUnder_iff reached).mp stays)

/-- What lies directly in a version directory that is not taken away is left. -/
theorem InChannels.not_isUnder_artifact (stays : name :: octetsOf channel :: root ∉ places)
    (artifact : FileName) :
    Tree.isUnder places (artifact :: name :: octetsOf channel :: root) = false := by
  have outer := within.not_isUnder reached stays
  rw [Bool.eq_false_iff] at outer ⊢
  intro under
  obtain ⟨place, inside, below⟩ := Tree.isUnder_iff.mp under
  rcases List.suffix_cons_iff.mp below with same | above
  · obtain ⟨other, -, root', name', reached', rfl⟩ := within place inside
    obtain rfl := Except.ok.inj (reached.symm.trans reached')
    exact absurd (congrArg List.length same) (by simp)
  · exact outer (Tree.isUnder_iff.mpr ⟨place, inside, above⟩)

/-- Nothing is taken out of what lies in a channel. -/
theorem InChannels.not_stamped : name :: octetsOf channel :: root ∉ places.map List.tail := by
  intro stamped
  obtain ⟨place, inside, outer⟩ := List.mem_map.mp stamped
  obtain ⟨other, -, root', name', reached', rfl⟩ := within place inside
  obtain rfl := Except.ok.inj (reached.symm.trans reached')
  exact absurd (congrArg List.length outer) (by simp)

/-- A version directory that is not taken away is left as it was. -/
theorem InChannels.versionAt?_left (stays : name :: octetsOf channel :: root ∉ places) :
    versionAt? (tree.without places) (octetsOf channel :: root) name =
      versionAt? tree (octetsOf channel :: root) name := by
  rw [versionAt?_without (within.not_isUnder reached stays)]
  simp only [within.not_stamped reached, if_false]
  cases versionAt? tree (octetsOf channel :: root) name <;> rfl

end Depth

/-! ### Entries -/

section Entry

variable (named : Config.isChannelName channel = true) {location : Location}
  (leads : tree.resolve ⟨true, false⟩ [] (store.channelDirectory channel) = .ok location)
  {name : FileName} (proper : Path.IsProper name)

include named leads proper

/-- What stands in a channel that leads to a directory. -/
theorem entry_in_channel (inside : tree.isDirectoryAt location = true) {node : Node} :
    tree.entry [] ((store.channelDirectory channel).join ⟨name⟩) = .ok node ↔
      Removable (store.channelDirectory channel) name ∧ tree.find? (name :: location) = some node :=
  have channelProper := isProper_of_isChannelName named
  Tree.entry_below channelProper.nonempty channelProper.whole leads inside proper

/-- The path of a directory in a channel leads to it. -/
theorem resolve_version (inside : tree.isDirectoryAt location = true) {modified : Timestamp}
    (removable : Removable (store.channelDirectory channel) name)
    (directory : tree.find? (name :: location) = some (.directory modified)) :
    tree.resolve ⟨true, false⟩ [] ((store.channelDirectory channel).join ⟨name⟩) =
        .ok (name :: location) ∧ tree.isDirectoryAt (name :: location) = true := by
  have channelProper := isProper_of_isChannelName named
  have entry := (entry_in_channel named leads proper inside).mpr ⟨removable, directory⟩
  refine ⟨Tree.resolve_below channelProper.nonempty channelProper.whole leads proper entry nofun, ?_⟩
  unfold Tree.isDirectoryAt
  rw [directory]

end Entry

/-- An artifact has a name without slashes. -/
theorem whole_of_isPlainName {artifact : String} (plain : Config.isPlainName artifact = true) :
    octetsOf artifact ≠ [] ∧ Path.slash ∉ octetsOf artifact := by
  obtain ⟨nonempty, whole⟩ := Bool.and_eq_true_iff.mp plain
  have blank : octetsOf "" = [] := by
    rw [octetsOf_eq]
    rfl
  refine ⟨fun empty => ?_, Path.whole_octetsOf (by simpa using whole)⟩
  rw [octetsOf_injective (empty.trans blank.symm)] at nonempty
  cases nonempty

/-- What is left in a channel. -/
theorem IsAnchored.shelf (anchored : store.IsAnchored tree places) (proper : [] ∉ places)
    (member : channel ∈ store.channels) :
    store.shelf (tree.without places) channel =
      (store.shelf tree channel).map fun (location, names) =>
        (location, names.filter fun name => !Tree.isUnder places (name :: location)) := by
  have leads := anchored channel member
  have outlasts := Tree.resolve_without tree ⟨true, false⟩ rfl proper (store.channelDirectory channel)
  unfold ImageStore.shelf Tree.listing
  rw [leads] at outlasts ⊢
  cases found : tree.resolve ⟨true, false⟩ [] (store.channelDirectory channel) with
  | error cause => rfl
  | ok location =>
    have kept := (outlasts.eq_of_ok found).2
    simp only [bind, Except.bind, Tree.isDirectoryAt_without kept, Tree.namesAt_without]
    split <;> rfl

section Complete

variable (within : store.InChannels tree places) (anchored : store.IsAnchored tree places)
  (artifactNames : ∀ artifact ∈ store.artifacts, Config.isPlainName artifact = true)
  (named : Config.isChannelName channel = true) (member : channel ∈ store.channels)
  {root : Location} (reached : tree.namesLead [] store.root = .ok root)
  (leads : tree.resolve ⟨true, false⟩ [] (store.channelDirectory channel) =
    .ok (octetsOf channel :: root))
  (inside : tree.isDirectoryAt (octetsOf channel :: root) = true)

include within anchored artifactNames named member reached leads inside

/-- The files of a version directory that is not taken away are there to the end. -/
theorem isComplete_without {name : FileName} (proper : Path.IsProper name)
    (short : name.length ≤ Tree.nameLimit) {modified : Timestamp}
    (directory : tree.find? (name :: octetsOf channel :: root) = some (.directory modified))
    (stays : name :: octetsOf channel :: root ∉ places)
    (noLink : ∀ artifact ∈ store.artifacts, ∀ target,
      tree.entry [] (((store.channelDirectory channel).join ⟨name⟩).child artifact) ≠
        .ok (.link target))
    (complete : store.isComplete tree ((store.channelDirectory channel).join ⟨name⟩) = true) :
    store.isComplete (tree.without places) ((store.channelDirectory channel).join ⟨name⟩) =
      true := by
  -- the channel in the tree that is left
  have leadsLeft := (anchored channel member).trans leads
  have outlasts := Tree.resolve_without tree ⟨true, false⟩ rfl within.nil_not_mem
    (store.channelDirectory channel)
  have insideLeft :=
    (Tree.isDirectoryAt_without (outlasts.eq_of_ok leadsLeft).2).trans inside
  have directoryLeft := (Tree.find?_without (within.not_isUnder reached stays)).trans
    (congrArg _ directory)
  refine List.all_eq_true.mpr fun artifact listed => ?_
  have file := List.all_eq_true.mp complete artifact listed
  have free := noLink artifact listed
  obtain ⟨nonempty, whole⟩ := whole_of_isPlainName (artifactNames artifact listed)
  obtain ⟨content, fileEntry⟩ := (Tree.isFile_iff_entry free).mp file
  -- the system takes the path of an artifact, so it takes that of the version directory
  obtain ⟨target, leadsThere, -⟩ := Tree.entry_eq_ok.mp fileEntry
  have accepts := Tree.accepts_of_join whole
    (Path.octets_join_ne_nil proper.nonempty proper.whole) (Tree.accepts_of_resolve leadsThere)
  have removable : Removable (store.channelDirectory channel) name := ⟨accepts, short⟩
  obtain ⟨versionLeads, versionInside⟩ :=
    resolve_version named leads proper inside removable directory
  obtain ⟨versionLeadsLeft, versionInsideLeft⟩ :=
    resolve_version named leadsLeft proper insideLeft removable directoryLeft
  have artifactProper := Tree.isProper_of_entry proper.nonempty proper.whole versionLeads
    versionInside inside nonempty whole fileEntry nofun
  obtain ⟨accepted, there⟩ := (Tree.entry_below proper.nonempty proper.whole versionLeads
    versionInside artifactProper).mp fileEntry
  have thereLeft := (Tree.find?_without_eq_file
    (within.not_isUnder_artifact reached stays (octetsOf artifact))).mpr there
  have fileLeft := (Tree.entry_below proper.nonempty proper.whole versionLeadsLeft
    versionInsideLeft artifactProper).mpr ⟨accepted, thereLeft⟩
  refine (Tree.isFile_iff_entry fun target link => ?_).mpr ⟨content, fileLeft⟩
  cases fileLeft.symm.trans link

/-- A version directory that is kept and not taken away would be kept to the end. -/
theorem kept?_without {name : FileName} {version : Version} (sound : tree.IsSound)
    (stays : name :: octetsOf channel :: root ∉ places)
    (noLink : ∀ artifact ∈ store.artifacts, ∀ target,
      tree.entry [] (((store.channelDirectory channel).join ⟨name⟩).child artifact) ≠
        .ok (.link target))
    (kept : store.kept? tree (store.channelDirectory channel) (octetsOf channel :: root) name =
      some version) :
    store.kept? (tree.without places) (store.channelDirectory channel) (octetsOf channel :: root)
      name = some version := by
  obtain ⟨modified, found, passes⟩ := kept?_eq_some.mp kept
  obtain ⟨fresh, complete⟩ := Bool.and_eq_true_iff.mp passes
  obtain ⟨directory, stands⟩ := versionAt?_eq_some.mp found
  have completeLeft := isComplete_without within anchored artifactNames named member reached leads
    inside (isProper_of_versionOf? stands).1 (sound.length_le directory) directory stays noLink
    complete
  exact kept?_eq_some.mpr ⟨modified, (within.versionAt?_left reached stays).trans found,
    Bool.and_eq_true_iff.mpr ⟨fresh, completeLeft⟩⟩

end Complete

end VmFleet.ImageStore
