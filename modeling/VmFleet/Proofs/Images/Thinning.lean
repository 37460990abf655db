/-
This file proves what a scan finds where no link lies in the store. Then the files of a
version are in its own directory, so taking version directories away makes no other version
incomplete. Once nothing is left to be discarded a scan changes nothing, and when a version
is taken away the next scan lists what the last one did without this version.
-/

import VmFleet.Proofs.Images.Clearing
import VmFleet.Proofs.Images.Exact

namespace VmFleet.ImageStore

open VmFleet.Text

/-- No link lies below the root of the store. -/
def IsLinkFree (store : ImageStore) (tree : Tree) : Prop :=
  ∀ root name location target, tree.namesLead [] store.root = .ok root → root <:+ location →
    tree.find? (name :: location) ≠ some (.link target)

variable {store : ImageStore} {tree : Tree} {places : List Location} {channel : String}

/-- A store in a tree without links. -/
theorem isLinkFree_of_all
    (none : tree.nodes.all (fun row => match row.2 with | .link _ => false | _ => true) = true) :
    store.IsLinkFree tree := by
  intro root name location target _ _ found
  have row := Tree.mem_nodes_of_find? (List.cons_ne_nil _ _) found
  cases List.all_eq_true.mp none _ row

theorem IsLinkFree.without (free : store.IsLinkFree tree) (proper : [] ∉ places) :
    store.IsLinkFree (tree.without places) := by
  intro root name location target reached below found
  have before := ((Tree.namesLead_without tree proper store.root).eq_of_ok reached).1
  cases under : Tree.isUnder places (name :: location) with
  | true =>
    rw [Tree.find?_without_of_isUnder tree (List.cons_ne_nil _ _) under] at found
    cases found
  | false =>
    rw [Tree.find?_without under] at found
    obtain ⟨node, there, same⟩ := Option.map_eq_some_iff.mp found
    refine free root name location target before below (there.trans (congrArg some ?_))
    cases node with
    | link other => exact same
    | _ => cases same

/-! ### Channels and artifacts -/

section Channel

variable (free : store.IsLinkFree tree) (named : Config.isChannelName channel = true)
  {location : Location}
  (leads : tree.resolve ⟨true, false⟩ [] (store.channelDirectory channel) = .ok location)

include free named leads

/-- A channel leads to the directory under its name in the root. -/
theorem IsLinkFree.exists_root :
    ∃ root, tree.namesLead [] store.root = .ok root ∧ location = octetsOf channel :: root := by
  have proper := isProper_of_isChannelName named
  have noLink : ∀ target, tree.entry [] (store.channelDirectory channel) ≠ .ok (.link target) := by
    intro target link
    obtain ⟨-, root, reached, -, found⟩ := (Tree.entry_join_eq_ok proper).mp link
    exact free root _ root target reached (List.suffix_refl _) found
  rw [Tree.resolve_follow noLink] at leads
  obtain ⟨-, root, reached, -, same, -⟩ := (Tree.resolve_join_eq_ok proper).mp leads
  exact ⟨root, reached, same⟩

/-- No artifact of a version directory is a link. -/
theorem IsLinkFree.artifact (sound : tree.IsSound) (inside : tree.isDirectoryAt location = true)
    {name : FileName} (proper : Path.IsProper name) {modified : Timestamp}
    (directory : tree.find? (name :: location) = some (.directory modified)) {artifact : String}
    (plain : Config.isPlainName artifact = true) (target : Path) :
    tree.entry [] (((store.channelDirectory channel).join ⟨name⟩).child artifact) ≠
      .ok (.link target) := by
  intro link
  obtain ⟨root, reached, rfl⟩ := free.exists_root named leads
  obtain ⟨nonempty, whole⟩ := whole_of_isPlainName plain
  obtain ⟨there, leadsThere, -⟩ := Tree.entry_eq_ok.mp link
  have accepts := Tree.accepts_of_join whole
    (Path.octets_join_ne_nil proper.nonempty proper.whole) (Tree.accepts_of_resolve leadsThere)
  obtain ⟨versionLeads, versionInside⟩ :=
    resolve_version named leads proper inside ⟨accepts, sound.length_le directory⟩ directory
  have artifactProper := Tree.isProper_of_entry proper.nonempty proper.whole versionLeads
    versionInside inside nonempty whole link nofun
  obtain ⟨-, found⟩ := (Tree.entry_below proper.nonempty proper.whole versionLeads
    versionInside artifactProper).mp link
  refine free root _ _ target reached ?_ found
  exact (List.suffix_cons _ root).trans (List.suffix_cons name _)

end Channel

/-- The discarded directories lie in the channels. -/
theorem IsLinkFree.inChannels (free : store.IsLinkFree tree)
    (named : ∀ channel ∈ store.channels, Config.isChannelName channel = true) :
    store.InChannels tree (store.spoiled tree) := by
  intro place spoilt
  obtain ⟨channel, member, inside⟩ := mem_spoiled.mp spoilt
  obtain ⟨location, names, name, shelf, -, -, rfl⟩ := mem_spoiledIn.mp inside
  obtain ⟨root, reached, rfl⟩ := free.exists_root (named channel member) (shelf_eq_ok.mp shelf).1
  exact ⟨channel, member, root, name, reached, rfl⟩

/-! ### Verdicts -/

section Left

variable (configured : store.IsConfigured) (sound : tree.IsSound) (free : store.IsLinkFree tree)
  (within : store.InChannels tree places) (anchored : store.IsAnchored tree places)
  (member : channel ∈ store.channels) {location : Location} {names : List FileName}
  (shelf : store.shelf tree channel = .ok (location, names)) {name : FileName}

include configured sound free within anchored member shelf

/-- What is kept and not taken away would be kept to the end. -/
theorem IsLinkFree.kept?_without {version : Version} (stays : name :: location ∉ places)
    (kept : store.kept? tree (store.channelDirectory channel) location name = some version) :
    store.kept? (tree.without places) (store.channelDirectory channel) location name =
      some version := by
  obtain ⟨leads, inside, -⟩ := shelf_eq_ok.mp shelf
  have named := configured.channelNames channel member
  obtain ⟨modified, found, -⟩ := kept?_eq_some.mp kept
  obtain ⟨directory, stands⟩ := versionAt?_eq_some.mp found
  have noLink := fun artifact listed => free.artifact named leads sound inside
    (isProper_of_versionOf? stands).1 directory (configured.artifactNames artifact listed)
  obtain ⟨root, reached, rfl⟩ := free.exists_root named leads
  exact ImageStore.kept?_without within anchored configured.artifactNames named member reached leads
    inside sound stays noLink kept

/-- Once everything that fails a check is taken away, what is left is kept if it was, and
nothing is left to be discarded. -/
theorem IsLinkFree.verdict_without (spoilt : store.spoiled tree ⊆ places) (entry : name ∈ names)
    (stays : name :: location ∉ places) :
    store.kept? (tree.without places) (store.channelDirectory channel) location name =
        store.kept? tree (store.channelDirectory channel) location name ∧
      store.discards (tree.without places) (store.channelDirectory channel) location name =
        false := by
  have named := configured.channelNames channel member
  obtain ⟨root, reached, rfl⟩ := free.exists_root named (shelf_eq_ok.mp shelf).1
  have same := within.versionAt?_left reached stays
  cases found : versionAt? tree (octetsOf channel :: root) name with
  | none => simp [ImageStore.kept?, ImageStore.discards, same, found]
  | some candidate =>
    obtain ⟨modified, version⟩ := candidate
    cases passes : store.passes tree (store.channelDirectory channel) name modified with
    | false =>
      have discarded := discards_iff.mpr ⟨modified, version, found, passes⟩
      exact absurd (spoilt (mem_spoiled.mpr ⟨channel, member, mem_spoiledIn.mpr
        ⟨_, names, name, shelf, entry, discarded, rfl⟩⟩)) stays
    | true =>
      have kept := kept?_eq_some.mpr ⟨modified, found, passes⟩
      have keptLeft := free.kept?_without configured sound within anchored member shelf stays kept
      refine ⟨keptLeft.trans kept.symm, ?_⟩
      rw [Bool.eq_false_iff]
      intro discarded
      rw [kept?_of_discards discarded] at keptLeft
      cases keptLeft

end Left

section Sweep

variable (configured : store.IsConfigured) (sound : tree.IsSound) (free : store.IsLinkFree tree)
  (within : store.InChannels tree places) (anchored : store.IsAnchored tree places)
  (spoilt : store.spoiled tree ⊆ places)

include configured sound free within anchored spoilt

/-- Nothing is left to be discarded. -/
theorem IsLinkFree.spoiled_without : store.spoiled (tree.without places) = [] := by
  refine List.eq_nil_iff_forall_not_mem.mpr fun place still => ?_
  obtain ⟨channel, member, inside⟩ := mem_spoiled.mp still
  obtain ⟨location, left, name, shelfLeft, entry, discarded, -⟩ := mem_spoiledIn.mp inside
  rw [anchored.shelf within.nil_not_mem member] at shelfLeft
  cases shelf : store.shelf tree channel with
  | error cause =>
    rw [shelf] at shelfLeft
    cases shelfLeft
  | ok entries =>
    obtain ⟨there, names⟩ := entries
    rw [shelf] at shelfLeft
    obtain ⟨rfl, rfl⟩ := Prod.mk.inj (Except.ok.inj shelfLeft)
    obtain ⟨before, stays⟩ := List.mem_filter.mp entry
    have apart : name :: there ∉ places := fun taken => by
      rw [Tree.isUnder_iff.mpr ⟨_, taken, List.suffix_refl _⟩] at stays
      cases stays
    have verdict := free.verdict_without configured sound within anchored member shelf spoilt before
      apart
    rw [verdict.2] at discarded
    cases discarded

/-- The versions that are kept are those that were kept and are not taken away. -/
theorem IsLinkFree.keptIn_without (member : channel ∈ store.channels) {location : Location}
    {names : List FileName} (shelf : store.shelf tree channel = .ok (location, names)) :
    store.keptIn (tree.without places) channel =
      (store.keptIn tree channel).filter fun version =>
        decide (octetsOf version.render :: location ∉ places) := by
  have named := configured.channelNames channel member
  obtain ⟨root, reached, rfl⟩ := free.exists_root named (shelf_eq_ok.mp shelf).1
  unfold keptIn
  rw [anchored.shelf within.nil_not_mem member, shelf]
  simp only [Except.map]
  rw [List.filterMap_filter, List.filter_filterMap]
  refine List.filterMap_congr fun name entry => ?_
  cases taken : Tree.isUnder places (name :: octetsOf channel :: root) with
  | true =>
    have gone := (within.isUnder_iff reached).mp taken
    cases kept : store.kept? tree (store.channelDirectory channel) (octetsOf channel :: root) name with
    | none => rfl
    | some version =>
      rw [eq_octetsOf_of_kept? kept] at gone
      simp [Option.filter, gone]
  | false =>
    have stays := mt (within.isUnder_iff reached).mpr (Bool.eq_false_iff.mp taken)
    have verdict := free.verdict_without configured sound within anchored member shelf spoilt entry
      stays
    simp only [Bool.not_false, if_true, verdict.1]
    cases kept : store.kept? tree (store.channelDirectory channel) (octetsOf channel :: root) name with
    | none => rfl
    | some version =>
      rw [eq_octetsOf_of_kept? kept] at stays
      simp [Option.filter, stays]

end Sweep

/-- Without links the discarded directories are nobody else's. -/
theorem IsLinkFree.undisturbed (configured : store.IsConfigured) (sound : tree.IsSound)
    (free : store.IsLinkFree tree) (anchored : store.IsAnchored tree (store.spoiled tree)) :
    store.Undisturbed tree := by
  have within := free.inChannels configured.channelNames
  refine ⟨anchored, fun channel member location names shelf name entry version kept => ?_⟩
  refine free.kept?_without configured sound within anchored member shelf (fun spoilt => ?_) kept
  have named := configured.channelNames
  -- who discards the place is this channel, which keeps what stands there
  obtain ⟨other, otherMember, inside⟩ := mem_spoiled.mp spoilt
  obtain ⟨location', names', name', shelf', -, discarded, same⟩ := mem_spoiledIn.mp inside
  obtain ⟨root, reached, rfl⟩ := free.exists_root (named channel member) (shelf_eq_ok.mp shelf).1
  obtain ⟨root', reached', rfl⟩ :=
    free.exists_root (named other otherMember) (shelf_eq_ok.mp shelf').1
  obtain ⟨rfl, outer⟩ := List.cons.inj same
  obtain ⟨channels, rfl⟩ := List.cons.inj outer
  obtain rfl := octetsOf_injective channels
  rw [kept?_of_discards discarded] at kept
  cases kept

/-! ### Clean stores -/

/-- A store without links in which every channel can be read and nothing is to be discarded. -/
structure IsClean (store : ImageStore) (tree : Tree) : Prop where
  sound : tree.IsSound
  free : store.IsLinkFree tree
  readable : ∀ channel ∈ store.channels, store.Readable tree channel
  unspoilt : store.spoiled tree = []

theorem IsClean.spoiled_subset (clean : store.IsClean tree) (places : List Location) :
    store.spoiled tree ⊆ places := by
  rw [clean.unspoilt]
  exact List.nil_subset _

/-- A scan of a clean store lists what there is and changes nothing. -/
theorem IsClean.run_scan (clean : store.IsClean tree) (configured : store.IsConfigured) :
    store.scan.run tree = (.ok (store.survey tree), tree) := by
  have swept : store.swept tree = tree := by
    unfold ImageStore.swept
    rw [clean.unspoilt, Tree.without_nil]
  have undisturbed := clean.free.undisturbed configured clean.sound fun channel _ => by
    rw [clean.unspoilt, Tree.without_nil]
  have scan := run_scan_swept undisturbed configured.channelNames clean.readable
  rwa [swept] at scan

theorem isClean_without (configured : store.IsConfigured) (sound : tree.IsSound)
    (free : store.IsLinkFree tree) (within : store.InChannels tree places)
    (anchored : store.IsAnchored tree places) (spoilt : store.spoiled tree ⊆ places)
    (readable : ∀ channel ∈ store.channels, store.Readable tree channel) :
    store.IsClean (tree.without places) where
  sound := sound.without places
  free := free.without within.nil_not_mem
  unspoilt := free.spoiled_without configured sound within anchored spoilt
  readable := by
    intro channel member cause failed
    rw [anchored.shelf within.nil_not_mem member] at failed
    cases shelf : store.shelf tree channel with
    | error other =>
      rw [shelf] at failed
      obtain rfl := Except.error.inj failed
      exact readable channel member other shelf
    | ok entries =>
      rw [shelf] at failed
      cases failed

/-- A scan that succeeds leaves a clean store and the index of what is in it. -/
theorem IsLinkFree.scan_cleans (configured : store.IsConfigured) (sound : tree.IsSound)
    (free : store.IsLinkFree tree) (anchored : store.IsAnchored tree (store.spoiled tree))
    {index : ImageIndex} (succeeds : (store.scan.run tree).1 = .ok index) :
    store.scan.run tree = (.ok index, store.swept tree) ∧ store.IsClean (store.swept tree) ∧
      index = store.survey (store.swept tree) := by
  have undisturbed := free.undisturbed configured sound anchored
  obtain ⟨readable, rfl, run⟩ := (carries_scan undisturbed configured.channelNames).of_ok succeeds
  have clean := isClean_without configured sound free (free.inChannels configured.channelNames)
    anchored (List.Subset.refl _) readable
  refine ⟨run, clean, ?_⟩
  have again := run_scan_swept undisturbed configured.channelNames readable
  have here : store.scan.run (store.swept tree) = _ := clean.run_scan configured
  rw [again] at here
  exact Except.ok.inj (Prod.mk.inj here).1

/-! ### One version less -/

/-- The place of a version that stands. -/
theorem IsLinkFree.exists_place (free : store.IsLinkFree tree) (configured : store.IsConfigured)
    (member : channel ∈ store.channels) {text : String} {version : Version}
    (spelt : Version.parse? text = some version) {place : Location}
    (leads : tree.resolve ⟨false, false⟩ [] (store.versionDirectory channel text) = .ok place) :
    ∃ root, tree.namesLead [] store.root = .ok root ∧
      place = octetsOf text :: octetsOf channel :: root := by
  have proper := (isProper_of_versionOf? (versionOf?_octetsOf spelt)).1
  obtain ⟨location, reached, channelLeads⟩ :=
    resolve_channel_of_ok configured member proper leads
  obtain ⟨-, other, again, -, rfl, -⟩ := (Tree.resolve_join_eq_ok proper).mp leads
  obtain rfl := Except.ok.inj (reached.symm.trans again)
  obtain ⟨root, rootReached, rfl⟩ :=
    free.exists_root (configured.channelNames channel member) channelLeads
  exact ⟨root, rootReached, rfl⟩

/-- What a clean store lists stands there. -/
theorem IsClean.indexes (clean : store.IsClean tree) (configured : store.IsConfigured) :
    store.Indexes (store.Stands tree) (store.survey tree) := by
  have lists := (keeps_scan configured clean.sound tree (clears_self store tree)).2
  rw [clean.run_scan configured] at lists
  exact lists _ rfl

end VmFleet.ImageStore
