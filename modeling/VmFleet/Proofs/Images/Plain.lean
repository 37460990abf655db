/-
This file proves that where no link leads from one image into another the discarded
directories are nobody else's. Channels that are directories lie next to each other under
one root, so the version directories of all channels lie at one depth and none of them
holds another. If the root itself does not lead through a discarded directory either,
every verdict of the first look holds to the end.
-/

import VmFleet.Proofs.Images.Anchored

namespace VmFleet.ImageStore

open VmFleet.Text

/-- A store and a tree without surprises: the names are as a configuration has them, every
channel is missing or is a directory itself, and no artifact of a version directory is a
link. -/
structure IsPlain (store : ImageStore) (tree : Tree) : Prop where
  channelNames : ∀ channel ∈ store.channels, Config.isChannelName channel = true
  artifactNames : ∀ artifact ∈ store.artifacts, Config.isPlainName artifact = true
  channels : ∀ channel ∈ store.channels,
    tree.entry [] (store.channelDirectory channel) = .error .noEntry ∨
      ∃ modified, tree.entry [] (store.channelDirectory channel) = .ok (.directory modified)
  artifacts : ∀ channel ∈ store.channels, ∀ text version modified,
    Version.parse? text = some version →
    tree.entry [] (store.versionDirectory channel text) = .ok (.directory modified) →
    ∀ artifact ∈ store.artifacts, ∀ target,
      tree.entry [] ((store.versionDirectory channel text).child artifact) ≠ .ok (.link target)

/-- The channels can be relied on: their paths leave room for the name of a version, they do not
lead through what is discarded, and the system holds on to nothing in it. -/
structure IsSteady (store : ImageStore) (tree : Tree) : Prop where
  room : ∀ channel ∈ store.channels,
    (store.channelDirectory channel).octets.length + 1 + Tree.nameLimit ≤ Tree.pathLimit
  leads : ∀ channel ∈ store.channels,
    (store.swept tree).resolve ⟨true, false⟩ [] (store.channelDirectory channel) =
      tree.resolve ⟨true, false⟩ [] (store.channelDirectory channel)
  yields : ∀ place ∈ store.spoiled tree, tree.holdsIn place = false

variable {store : ImageStore} {tree : Tree}

instance : Decidable (store.IsSteady tree) :=
  decidable_of_iff
    ((∀ channel ∈ store.channels,
        (store.channelDirectory channel).octets.length + 1 + Tree.nameLimit ≤ Tree.pathLimit) ∧
      (∀ channel ∈ store.channels,
        (store.swept tree).resolve ⟨true, false⟩ [] (store.channelDirectory channel) =
          tree.resolve ⟨true, false⟩ [] (store.channelDirectory channel)) ∧
      ∀ place ∈ store.spoiled tree, tree.holdsIn place = false)
    ⟨fun ⟨room, leads, yields⟩ => ⟨room, leads, yields⟩,
      fun ⟨room, leads, yields⟩ => ⟨room, leads, yields⟩⟩

/-- A plain store as it can be told from its parts: the artifacts have names of things in a
directory, and no link has one of these names. -/
def looksPlain (store : ImageStore) (tree : Tree) : Bool :=
  store.channels.all Config.isChannelName &&
  store.artifacts.all (fun artifact =>
    Config.isPlainName artifact && Config.isChannelName artifact) &&
  store.channels.all (fun channel =>
    match tree.entry [] (store.channelDirectory channel) with
    | .error .noEntry => true
    | .ok (.directory _) => true
    | _ => false) &&
  tree.nodes.all fun (location, node) =>
    match node with
    | .link _ => store.artifacts.all fun artifact => location.head? != some (octetsOf artifact)
    | _ => true

theorem isPlain_of_looksPlain (looks : store.looksPlain tree = true) : store.IsPlain tree := by
  unfold looksPlain at looks
  simp only [Bool.and_eq_true, List.all_eq_true] at looks
  obtain ⟨⟨⟨channelNames, artifactNames⟩, channels⟩, links⟩ := looks
  refine ⟨channelNames, fun artifact listed => (artifactNames artifact listed).1, ?_, ?_⟩
  · intro channel member
    have sort := channels channel member
    split at sort
    · rename_i missing
      exact .inl missing
    · rename_i modified directory
      exact .inr ⟨modified, directory⟩
    · cases sort
  · intro channel member text version modified read entry artifact listed target link
    have proper := isProper_of_isChannelName (artifactNames artifact listed).2
    obtain ⟨-, location, -, -, found⟩ := (Tree.entry_join_eq_ok proper).mp link
    have apart := links _ (Tree.mem_nodes_of_find? (List.cons_ne_nil _ _) found)
    have different := List.all_eq_true.mp apart artifact listed
    simp at different

section Channel

variable (plain : store.IsPlain tree) {channel : String} (member : channel ∈ store.channels)

include plain member

/-- A channel is missing, or it is a directory under its name in the root. -/
theorem IsPlain.shelf_cases :
    store.shelf tree channel = .error .noEntry ∨ ∃ root,
      tree.namesLead [] store.root = .ok root ∧
        store.shelf tree channel =
          .ok (octetsOf channel :: root, tree.namesAt (octetsOf channel :: root)) := by
  have proper := isProper_of_isChannelName (plain.channelNames channel member)
  have free : ∀ target, tree.entry [] (store.channelDirectory channel) ≠ .ok (.link target) := by
    intro target link
    rcases plain.channels channel member with missing | ⟨modified, directory⟩
    · rw [missing] at link
      cases link
    · rw [directory] at link
      cases link
  have followed := Tree.resolve_follow free
  rcases plain.channels channel member with missing | ⟨modified, directory⟩
  · left
    have absent : tree.resolve ⟨false, false⟩ [] (store.channelDirectory channel) =
        .error .noEntry := Tree.resolve_join_of_entry_error proper missing
    unfold shelf Tree.listing
    rw [followed, absent]
    rfl
  · right
    obtain ⟨location, leads, found⟩ := Tree.entry_eq_ok.mp directory
    obtain ⟨-, root, reached, -, rfl, -⟩ := (Tree.resolve_join_eq_ok proper).mp leads
    refine ⟨root, reached, shelf_eq_ok.mpr ⟨followed.trans leads, ?_, rfl⟩⟩
    unfold Tree.isDirectoryAt
    rw [found]

end Channel

/-- A discarded directory lies in the directory of a channel in the root. -/
theorem IsPlain.exists_of_mem_spoiled (plain : store.IsPlain tree) {place : Location}
    (spoilt : place ∈ store.spoiled tree) : ∃ channel ∈ store.channels, ∃ root name,
      tree.namesLead [] store.root = .ok root ∧ place = name :: octetsOf channel :: root ∧
        store.discards tree (store.channelDirectory channel) (octetsOf channel :: root) name =
          true := by
  obtain ⟨channel, member, inside⟩ := mem_spoiled.mp spoilt
  obtain ⟨location, names, name, shelf, -, discarded, rfl⟩ := mem_spoiledIn.mp inside
  rcases plain.shelf_cases member with missing | ⟨root, reached, same⟩
  · rw [missing] at shelf
    cases shelf
  · obtain ⟨rfl, -⟩ := Prod.mk.inj (Except.ok.inj (same.symm.trans shelf))
    exact ⟨channel, member, root, name, reached, rfl, discarded⟩

/-- The discarded directories lie in the channels. -/
theorem IsPlain.inChannels (plain : store.IsPlain tree) :
    store.InChannels tree (store.spoiled tree) := by
  intro place spoilt
  obtain ⟨channel, member, root, name, reached, same, -⟩ := plain.exists_of_mem_spoiled spoilt
  exact ⟨channel, member, root, name, reached, same⟩

/-- A version directory that is kept is not discarded. -/
theorem IsPlain.not_mem_spoiled_of_kept (plain : store.IsPlain tree) {channel : String}
    {root : Location} (reached : tree.namesLead [] store.root = .ok root) {name : FileName}
    {version : Version}
    (kept : store.kept? tree (store.channelDirectory channel) (octetsOf channel :: root) name =
      some version) : name :: octetsOf channel :: root ∉ store.spoiled tree := by
  intro spoilt
  obtain ⟨other, -, root', name', reached', same, discarded⟩ := plain.exists_of_mem_spoiled spoilt
  obtain rfl := Except.ok.inj (reached.symm.trans reached')
  obtain ⟨rfl, outer⟩ := List.cons.inj same
  obtain rfl := octetsOf_injective (List.cons.inj outer).1
  rw [kept?_of_discards discarded] at kept
  cases kept

/-- There is room for the path of a version directory. -/
theorem IsSteady.removable (steady : store.IsSteady tree) {channel : String}
    (member : channel ∈ store.channels) {location : Location}
    (leads : tree.resolve ⟨true, false⟩ [] (store.channelDirectory channel) = .ok location)
    {name : FileName} {version : Version} (stands : versionOf? name = some version)
    (short : name.length ≤ Tree.nameLimit) : Removable (store.channelDirectory channel) name := by
  obtain ⟨proper, octets⟩ := isProper_of_versionOf? stands
  have room := steady.room channel member
  exact ⟨Tree.accepts_join proper.whole (Tree.accepts_of_resolve leads) octets (by omega), short⟩

section Undisturbed

variable (plain : store.IsPlain tree) (steady : store.IsSteady tree) (sound : tree.IsSound)

include plain steady sound

/-- The discarded directories are nobody else's. -/
theorem undisturbed_of_plain : store.Undisturbed tree := by
  refine ⟨steady.leads, ?_⟩
  intro channel member location names shelf name entry version kept
  rcases plain.shelf_cases member with missing | ⟨root, reached, same⟩
  · rw [missing] at shelf
    cases shelf
  obtain ⟨rfl, -⟩ := Prod.mk.inj (Except.ok.inj (same.symm.trans shelf))
  obtain ⟨leads, inside, -⟩ := shelf_eq_ok.mp shelf
  obtain ⟨modified, found, -⟩ := kept?_eq_some.mp kept
  obtain ⟨directory, stands⟩ := versionAt?_eq_some.mp found
  have named := plain.channelNames channel member
  have removable := steady.removable member leads stands (sound.length_le directory)
  have versionEntry := (entry_in_channel named leads (isProper_of_versionOf? stands).1 inside).mpr
    ⟨removable, directory⟩
  refine kept?_without plain.inChannels steady.leads plain.artifactNames named member reached leads
    inside sound (plain.not_mem_spoiled_of_kept reached kept) ?_ kept
  have path := versionDirectory_render store channel stands
  rw [← path] at versionEntry ⊢
  exact plain.artifacts channel member version.render version modified
    (eq_octetsOf_of_versionOf? stands).2 versionEntry

/-- The system refuses nothing that the scan asks for. -/
theorem workable_of_plain {channel : String} (member : channel ∈ store.channels) :
    store.Workable tree [] channel := by
  constructor
  · intro cause failed
    rcases plain.shelf_cases member with missing | ⟨root, -, shelf⟩
    · exact Except.error.inj (failed.symm.trans missing)
    · rw [shelf] at failed
      cases failed
  · intro location names shelf name entry discarded _
    obtain ⟨modified, version, found, -⟩ := discards_iff.mp discarded
    obtain ⟨directory, stands⟩ := versionAt?_eq_some.mp found
    refine ⟨steady.removable member (shelf_eq_ok.mp shelf).1 stands (sound.length_le directory), ?_⟩
    exact steady.yields _ (mem_spoiled.mpr ⟨channel, member, mem_spoiledIn.mpr
      ⟨location, names, name, shelf, entry, discarded, rfl⟩⟩)

end Undisturbed

end VmFleet.ImageStore
