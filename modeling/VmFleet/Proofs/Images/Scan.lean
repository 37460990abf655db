/-
This file proves that a scan carries out the first look. It visits the channels and their
entries one after the other, in trees that lack some of the spoiled places. There every
entry that is left has the verdict of the first look, so each step takes away what the
first look says, and a whole scan leaves the first tree without the spoiled places.
-/

import VmFleet.Config.Validation
import VmFleet.Proofs.Images.Survey

namespace VmFleet.ImageStore

open TreeRequest VmFleet.Text

/-- A channel has a name of something in a directory. -/
theorem isProper_of_isChannelName {channel : String} (named : Config.isChannelName channel = true) :
    Path.IsProper (octetsOf channel) := by
  obtain ⟨starts, allowed⟩ := Bool.and_eq_true_iff.mp named
  have nameless : ∀ (other : String) {octets : FileName}, octetsOf other = octets →
      Config.isChannelName other = false → octetsOf channel ≠ octets := by
    rintro other _ rfl bad same
    rw [octetsOf_injective same, bad] at named
    cases named
  refine ⟨nameless "" (by rw [octetsOf_eq]; rfl) (by decide), Path.whole_octetsOf fun slash => ?_,
    nameless "." (by rw [octetsOf_eq]; rfl) (by decide),
    nameless ".." (by rw [octetsOf_eq]; rfl) (by decide)⟩
  have bad := List.all_eq_true.mp allowed '/' slash
  revert bad
  decide

/-- A request is carried out, with a value and the tree that is left, and something was as
needed; or the request is not possible and fails. -/
def Carries {α : Type} (needed possible : Prop) (result : Except FleetError α × Tree) (value : α)
    (left : Tree) : Prop :=
  needed ∧ result = (.ok value, left) ∨ ¬ possible ∧ ∃ error left', result = (.error error, left')

section Carries

variable {α β : Type} {needed possible : Prop} {value : α} {tree middle left : Tree}
  {result : Except FleetError α × Tree}

theorem Carries.mono (carries : Carries needed possible result value left) {harder : Prop}
    (implies : harder → possible) : Carries needed harder result value left :=
  carries.imp_right fun ⟨fails, ended⟩ => ⟨mt implies fails, ended⟩

theorem Carries.weaken (carries : Carries needed possible result value left) {less : Prop}
    (implies : needed → less) : Carries less possible result value left :=
  carries.imp_left fun ⟨before, run⟩ => ⟨implies before, run⟩

/-- One request after the other. -/
theorem Carries.bind {request : FileRequest α} {next : α → FileRequest β} {outcome : β}
    {further : Prop} (first : Carries needed possible (request.run tree) value middle)
    (second : Carries further possible ((next value).run middle) outcome left) :
    Carries (needed ∧ further) possible ((request >>= next).run tree) outcome left := by
  unfold Carries
  rw [run_bind]
  rcases first with ⟨before, run⟩ | ⟨fails, error, left', run⟩
  · rw [run]
    exact second.imp_left fun ⟨after, ended⟩ => ⟨⟨before, after⟩, ended⟩
  · rw [run]
    exact .inr ⟨fails, error, left', rfl⟩

/-- What is made of the value at the end. -/
theorem Carries.map {request : FileRequest α}
    (carries : Carries needed possible (request.run tree) value left) (make : α → β) :
    Carries needed possible ((request >>= fun value => pure (make value)).run tree) (make value)
      left := by
  unfold Carries
  rw [run_bind]
  rcases carries with ⟨before, run⟩ | ⟨fails, error, left', run⟩
  · rw [run]
    exact .inl ⟨before, rfl⟩
  · rw [run]
    exact .inr ⟨fails, error, left', rfl⟩

/-- A request that succeeded was carried out. -/
theorem Carries.of_ok {other : α} (carries : Carries needed possible result value left)
    (succeeds : result.1 = .ok other) : needed ∧ value = other ∧ result = (.ok value, left) := by
  rcases carries with ⟨before, rfl⟩ | ⟨-, error, left', rfl⟩
  · exact ⟨before, Except.ok.inj succeeds, rfl⟩
  · cases succeeds

/-- A request that is possible is carried out. -/
theorem Carries.of_possible (carries : Carries needed possible result value left)
    (holds : possible) : result = (.ok value, left) :=
  (carries.resolve_right fun ⟨fails, _⟩ => fails holds).2

end Carries

variable {store : ImageStore} {tree : Tree}

/-! ### How a channel is scanned -/

/-- A channel is scanned by what its directory lists. -/
theorem run_scanChannel (store : ImageStore) (tree : Tree) (channel : String) :
    (store.scanChannel channel).run tree =
      match store.shelf tree channel with
      | .error .noEntry => (.ok [], tree)
      | .error cause =>
        (.error (.io ("reading " ++ (store.channelDirectory channel).display) cause), tree)
      | .ok (location, names) =>
        (names.mapM (store.judge (store.channelDirectory channel) location) >>= fun versions =>
          pure (Version.ascending (versions.filterMap id)) : FileRequest (List Version)).run tree := by
  unfold scanChannel ImageStore.shelf channelDirectory
  rw [run_bind, run_attempt, run_inspect]
  rcases tree.listing [] (store.root.child channel) with cause | ⟨location, names⟩
  · cases cause <;> rfl
  · rfl

/-- A channel that is missing has no versions. -/
theorem run_scanChannel_of_missing {channel : String}
    (shelf : store.shelf tree channel = .error .noEntry) :
    (store.scanChannel channel).run tree = (.ok [], tree) := by
  rw [run_scanChannel, shelf]

/-- A channel that cannot be read ends the scan. -/
theorem run_scanChannel_of_error {channel : String} {cause : Cause}
    (shelf : store.shelf tree channel = .error cause) (present : cause ≠ .noEntry) :
    (store.scanChannel channel).run tree =
      (.error (.io ("reading " ++ (store.channelDirectory channel).display) cause), tree) := by
  rw [run_scanChannel, shelf]
  cases cause with
  | noEntry => exact absurd rfl present
  | _ => rfl

/-- A channel that can be read has every one of its entries judged. -/
theorem run_scanChannel_of_ok {channel : String} {location : Location} {names : List FileName}
    (shelf : store.shelf tree channel = .ok (location, names)) :
    (store.scanChannel channel).run tree =
      (names.mapM (store.judge (store.channelDirectory channel) location) >>= fun versions =>
        pure (Version.ascending (versions.filterMap id)) : FileRequest (List Version)).run tree := by
  rw [run_scanChannel, shelf]

/-! ### What a visit does -/

section Visit

variable (undisturbed : store.Undisturbed tree)
  (named : ∀ channel ∈ store.channels, Config.isChannelName channel = true)
  {gone : List Location} (spoilt : gone ⊆ store.spoiled tree)

include undisturbed

/-- What a channel leads to is not taken away. -/
theorem not_isUnder_channel {channel : String} (member : channel ∈ store.channels)
    {location : Location}
    (leads : tree.resolve ⟨true, false⟩ [] (store.channelDirectory channel) = .ok location) :
    Tree.isUnder (store.spoiled tree) location = false := by
  have outlasts := Tree.resolve_without tree ⟨true, false⟩ rfl
    (nil_not_mem_spoiled store tree) (store.channelDirectory channel)
  exact (outlasts.eq_of_ok ((undisturbed.channels channel member).trans leads)).2

include spoilt

/-- While the scan goes on, every channel leads where it led. -/
theorem resolve_channel {channel : String} (member : channel ∈ store.channels) :
    (tree.without gone).resolve ⟨true, false⟩ [] (store.channelDirectory channel) =
      tree.resolve ⟨true, false⟩ [] (store.channelDirectory channel) :=
  Tree.resolve_of_subset tree rfl (nil_not_mem_spoiled store tree) spoilt
    (undisturbed.channels channel member)

/-- Of the entries of a channel just those are gone that were taken away by themselves. -/
theorem isUnder_entry {channel : String} (member : channel ∈ store.channels) {location : Location}
    {names : List FileName} (shelf : store.shelf tree channel = .ok (location, names))
    (name : FileName) :
    Tree.isUnder gone (name :: location) = true ↔ name :: location ∈ gone := by
  rw [Tree.isUnder_iff]
  constructor
  · rintro ⟨place, inside, below⟩
    rcases List.suffix_cons_iff.mp below with rfl | above
    · exact inside
    · have kept := not_isUnder_channel undisturbed member (shelf_eq_ok.mp shelf).1
      rw [Bool.eq_false_iff] at kept
      exact absurd (Tree.isUnder_iff.mpr ⟨place, spoilt inside, above⟩) kept
  · exact fun inside => ⟨_, inside, List.suffix_refl _⟩

/-- What is left in a channel. -/
theorem shelf_without {channel : String} (member : channel ∈ store.channels) :
    store.shelf (tree.without gone) channel =
      (store.shelf tree channel).map fun (location, names) =>
        (location, names.filter (· :: location ∉ gone)) := by
  have leads := resolve_channel undisturbed spoilt member
  cases shelf : store.shelf tree channel with
  | error cause =>
    unfold ImageStore.shelf Tree.listing at shelf ⊢
    rw [leads]
    rcases found : tree.resolve ⟨true, false⟩ [] (store.channelDirectory channel) with _ | location
    · rw [found] at shelf
      exact shelf
    · have kept := Tree.not_isUnder_of_subset spoilt (not_isUnder_channel undisturbed member found)
      rw [found] at shelf
      simp only [bind, Except.bind] at shelf ⊢
      rw [Tree.isDirectoryAt_without kept]
      split at shelf
      · cases shelf
      · rename_i outside
        rw [if_neg outside]
        exact shelf
  | ok entries =>
    obtain ⟨location, names⟩ := entries
    obtain ⟨found, directory, rfl⟩ := shelf_eq_ok.mp shelf
    have kept := Tree.not_isUnder_of_subset spoilt (not_isUnder_channel undisturbed member found)
    refine shelf_eq_ok.mpr ⟨leads.trans found, ?_, ?_⟩
    · rw [Tree.isDirectoryAt_without kept, directory]
    · rw [Tree.namesAt_without]
      refine List.filter_congr fun name _ => ?_
      have entry := isUnder_entry undisturbed spoilt member shelf name
      by_cases inside : name :: location ∈ gone
      · simp [inside, entry.mpr inside]
      · simp [inside, Bool.eq_false_iff.mpr (mt entry.mp inside)]

section Entry

variable {channel : String} (member : channel ∈ store.channels) {location : Location}
  {names : List FileName} (shelf : store.shelf tree channel = .ok (location, names))
  {name : FileName} (entry : name ∈ names)

include member shelf entry

/-- An entry that is taken away is not kept. -/
theorem kept?_of_mem_gone (taken : name :: location ∈ gone) :
    store.kept? tree (store.channelDirectory channel) location name = none := by
  cases kept : store.kept? tree (store.channelDirectory channel) location name with
  | none => rfl
  | some version =>
    have still := undisturbed.versions channel member location names shelf name entry version kept
    obtain ⟨modified, found, -⟩ := kept?_eq_some.mp still
    have missing : (store.swept tree).find? (name :: location) = none :=
      Tree.find?_without_of_isUnder tree (List.cons_ne_nil _ _)
        (Tree.isUnder_iff.mpr ⟨_, spoilt taken, List.suffix_refl _⟩)
    rw [(versionAt?_eq_some.mp found).1] at missing
    cases missing

/-- An entry that passes both checks at the first look passes them when it is judged. -/
theorem passes_without {modified : Timestamp} {version : Version}
    (found : versionAt? tree location name = some (modified, version))
    (passes : store.passes tree (store.channelDirectory channel) name modified = true) :
    store.passes (tree.without gone) (store.channelDirectory channel) name
      (if name :: location ∈ gone.map List.tail then tree.now else modified) = true := by
  have kept : store.kept? tree (store.channelDirectory channel) location name = some version :=
    kept?_eq_some.mpr ⟨modified, found, passes⟩
  obtain ⟨changed, last, passesLast⟩ := kept?_eq_some.mp
    (undisturbed.versions channel member location names shelf name entry version kept)
  have stays : Tree.isUnder (store.spoiled tree) (name :: location) = false := by
    rw [Bool.eq_false_iff]
    intro under
    have missing := Tree.find?_without_of_isUnder tree (List.cons_ne_nil _ _) under
    have present := (versionAt?_eq_some.mp last).1
    unfold swept at present
    rw [missing] at present
    cases present
  unfold swept at last
  rw [versionAt?_without stays, found] at last
  obtain ⟨rfl, -⟩ := Prod.mk.inj (Option.some.inj last)
  unfold ImageStore.passes at *
  obtain ⟨fresh, -⟩ := Bool.and_eq_true_iff.mp passes
  obtain ⟨freshLast, completeLast⟩ := Bool.and_eq_true_iff.mp passesLast
  refine Bool.and_eq_true_iff.mpr ⟨?_, ?_⟩
  · split
    · rename_i stamped
      rwa [if_pos (List.map_subset _ spoilt stamped)] at freshLast
    · exact fresh
  · unfold swept at completeLast
    rw [Tree.without_of_subset spoilt] at completeLast
    exact isComplete_of_without (nil_not_mem_spoiled store tree) completeLast

/-- An entry that fails a check at the first look fails one when it is judged. -/
theorem not_passes_without {modified : Timestamp} {version : Version}
    (found : versionAt? tree location name = some (modified, version))
    (fails : store.passes tree (store.channelDirectory channel) name modified = false) :
    store.passes (tree.without gone) (store.channelDirectory channel) name
      (if name :: location ∈ gone.map List.tail then tree.now else modified) = false := by
  have discarded : name :: location ∈ store.spoiled tree :=
    mem_spoiled.mpr ⟨channel, member, mem_spoiledIn.mpr ⟨location, names, name, shelf, entry,
      discards_iff.mpr ⟨modified, version, found, fails⟩, rfl⟩⟩
  -- nothing is taken out of it, since it is no directory of a channel
  have unchanged : name :: location ∉ gone.map List.tail := by
    intro stamped
    obtain ⟨place, inside, outer⟩ := List.mem_map.mp stamped
    obtain ⟨other, among, taken⟩ := mem_spoiled.mp (spoilt inside)
    obtain ⟨outside, others, inner, otherShelf, -, -, rfl⟩ := mem_spoiledIn.mp taken
    have outer : outside = name :: location := outer
    have kept := not_isUnder_channel undisturbed among (shelf_eq_ok.mp otherShelf).1
    rw [Bool.eq_false_iff] at kept
    exact kept (Tree.isUnder_iff.mpr ⟨_, discarded, outer ▸ List.suffix_refl _⟩)
  rw [if_neg unchanged]
  unfold ImageStore.passes at *
  rw [Bool.eq_false_iff] at fails ⊢
  intro passes
  obtain ⟨fresh, complete⟩ := Bool.and_eq_true_iff.mp passes
  exact fails (Bool.and_eq_true_iff.mpr ⟨fresh,
    isComplete_of_without (fun inside => nil_not_mem_spoiled store tree (spoilt inside)) complete⟩)

/-- An entry that is left has the verdict of the first look. -/
theorem verdict_without (left : name :: location ∉ gone) :
    store.kept? (tree.without gone) (store.channelDirectory channel) location name =
        store.kept? tree (store.channelDirectory channel) location name ∧
      store.discards (tree.without gone) (store.channelDirectory channel) location name =
        store.discards tree (store.channelDirectory channel) location name := by
  have kept : Tree.isUnder gone (name :: location) = false :=
    Bool.eq_false_iff.mpr (mt (isUnder_entry undisturbed spoilt member shelf name).mp left)
  unfold kept? discards
  rw [versionAt?_without kept]
  cases found : versionAt? tree location name with
  | none => exact ⟨rfl, rfl⟩
  | some candidate =>
    obtain ⟨modified, version⟩ := candidate
    simp only [Option.map_some, Option.bind_some, Option.any_some]
    cases verdict : store.passes tree (store.channelDirectory channel) name modified with
    | true =>
      rw [passes_without undisturbed spoilt member shelf entry found verdict]
      exact ⟨rfl, rfl⟩
    | false =>
      rw [not_passes_without undisturbed spoilt member shelf entry found verdict]
      exact ⟨rfl, rfl⟩

include named

omit entry in
/-- Where the path of an entry leads if the system takes it. -/
theorem resolve_entry (proper : Path.IsProper name)
    (present : (tree.without gone).find? (name :: location) ≠ none) :
    Removable (store.channelDirectory channel) name ∧
        (tree.without gone).resolve ⟨false, false⟩ []
          ((store.channelDirectory channel).join ⟨name⟩) = .ok (name :: location) ∨
      ¬ Removable (store.channelDirectory channel) name ∧ ∃ cause,
        (tree.without gone).resolve ⟨false, false⟩ []
          ((store.channelDirectory channel).join ⟨name⟩) = .error cause := by
  obtain ⟨leads, directory, -⟩ := shelf_eq_ok.mp shelf
  have kept := Tree.not_isUnder_of_subset spoilt (not_isUnder_channel undisturbed member leads)
  have still := (resolve_channel undisturbed spoilt member).trans leads
  have channelProper := isProper_of_isChannelName (named channel member)
  -- the names of the path go on from the directory of the channel
  have outer : (tree.without gone).namesLead [] (store.channelDirectory channel) = .ok location :=
    (Tree.namesLead_join _ [] channelProper.nonempty channelProper.whole
      (Tree.accepts_of_resolve still)).trans still
  by_cases removable : Removable (store.channelDirectory channel) name
  · refine .inl ⟨removable, (Tree.resolve_join_eq_ok proper).mpr
      ⟨removable, location, outer, ?_, rfl, present⟩⟩
    rw [Tree.isDirectoryAt_without kept, directory]
  · refine .inr ⟨removable, ?_⟩
    cases result : (tree.without gone).resolve ⟨false, false⟩ []
      ((store.channelDirectory channel).join ⟨name⟩) with
    | error cause => exact ⟨cause, rfl⟩
    | ok target => exact absurd ((Tree.resolve_join_eq_ok proper).mp result).1 removable

/-- Judging an entry carries out the verdict of the first look. -/
theorem carries_judge :
    Carries True
      (store.discards tree (store.channelDirectory channel) location name = true →
        name :: location ∉ gone →
          Removable (store.channelDirectory channel) name ∧ tree.holdsIn (name :: location) = false)
      ((store.judge (store.channelDirectory channel) location name).run (tree.without gone))
      (store.kept? tree (store.channelDirectory channel) location name)
      (tree.without (gone ++
        ([name].filter (store.discards tree (store.channelDirectory channel) location)).map
          (· :: location))) := by
  by_cases taken : name :: location ∈ gone
  · -- nothing stands there any more, and there was nothing to keep
    have missing : (tree.without gone).find? (name :: location) = none :=
      Tree.find?_without_of_isUnder tree (List.cons_ne_nil _ _)
        (Tree.isUnder_iff.mpr ⟨_, taken, List.suffix_refl _⟩)
    have absent : versionAt? (tree.without gone) location name = none := by
      unfold versionAt?
      rw [missing]
    have same : tree.without gone = tree.without (gone ++
        ([name].filter (store.discards tree (store.channelDirectory channel) location)).map
          (· :: location)) := by
      refine Tree.without_congr fun place => ?_
      rw [List.mem_append]
      refine ⟨.inl, fun among => among.elim id fun again => ?_⟩
      obtain ⟨other, single, rfl⟩ := List.mem_map.mp again
      rwa [List.mem_singleton.mp (List.mem_of_mem_filter single)]
    refine .inl ⟨trivial, ?_⟩
    rw [run_judge, absent, kept?_of_mem_gone undisturbed spoilt member shelf entry taken, ← same]
  obtain ⟨sameKept, sameDiscards⟩ := verdict_without undisturbed spoilt member shelf entry taken
  cases verdict : store.discards tree (store.channelDirectory channel) location name with
  | false =>
    rw [verdict] at sameDiscards
    refine .inl ⟨trivial, ?_⟩
    rw [run_judge_of_stays sameDiscards, sameKept, List.filter_cons_of_neg (by simp [verdict])]
    simp
  | true =>
    rw [verdict] at sameDiscards
    obtain ⟨modified, version, found, -⟩ := discards_iff.mp sameDiscards
    obtain ⟨present, stands⟩ := versionAt?_eq_some.mp found
    rcases resolve_entry undisturbed named spoilt member shelf (isProper_of_versionOf? stands).1
      (by rw [present]; exact nofun) with ⟨-, leads⟩ | ⟨fixed, cause, failed⟩
    · rcases run_judge_of_discards sameDiscards leads with
        removed | ⟨error, cause, left, stuck, sticks⟩
      · refine .inl ⟨trivial, ?_⟩
        rw [removed, kept?_of_discards verdict, Tree.prune_without, List.filter_cons_of_pos verdict]
        rfl
      · refine .inr ⟨fun possible => ?_, error, left, stuck⟩
        have yields : (tree.without gone).holdsIn (name :: location) = false := (possible rfl taken).2
        rw [sticks.holdsIn] at yields
        cases yields
    · obtain ⟨error, run⟩ := run_judge_of_refused sameDiscards failed
      exact .inr ⟨fun possible => fixed (possible rfl taken).1, error, _, run⟩

end Entry

/-- Judging entries one after the other carries out their verdicts. -/
theorem carries_judges (named : ∀ channel ∈ store.channels, Config.isChannelName channel = true)
    {channel : String} (member : channel ∈ store.channels) {location : Location}
    {names : List FileName} (shelf : store.shelf tree channel = .ok (location, names))
    (rest : List FileName) (entries : rest ⊆ names) :
    Carries True (store.Clearable tree gone channel location rest)
      ((rest.mapM (store.judge (store.channelDirectory channel) location)).run (tree.without gone))
      (rest.map (store.kept? tree (store.channelDirectory channel) location))
      (tree.without (gone ++
        (rest.filter (store.discards tree (store.channelDirectory channel) location)).map
          (· :: location))) := by
  induction rest generalizing gone with
  | nil =>
    refine .inl ⟨trivial, ?_⟩
    simp
  | cons name rest inductionHypothesis =>
    have entry := entries List.mem_cons_self
    have first := carries_judge undisturbed named spoilt member shelf entry
    have further : gone ++
        ([name].filter (store.discards tree (store.channelDirectory channel) location)).map
          (· :: location) ⊆ store.spoiled tree := by
      refine List.append_subset.mpr ⟨spoilt, fun place among => ?_⟩
      obtain ⟨other, single, rfl⟩ := List.mem_map.mp among
      obtain ⟨among, discarded⟩ := List.mem_filter.mp single
      rw [List.mem_singleton.mp among] at discarded ⊢
      exact mem_spoiled.mpr ⟨channel, member, mem_spoiledIn.mpr
        ⟨location, names, name, shelf, entry, discarded, rfl⟩⟩
    have others := inductionHypothesis further fun other inside =>
      entries (List.mem_cons_of_mem _ inside)
    have sooner := first.mono
      fun possible : store.Clearable tree gone channel location (name :: rest) =>
        possible name List.mem_cons_self
    have later := others.mono
      fun possible : store.Clearable tree gone channel location (name :: rest) =>
        fun other inside discarded stays => possible other (List.mem_cons_of_mem _ inside) discarded
          fun before => stays (List.mem_append_left _ before)
    have whole : gone ++
          ([name].filter (store.discards tree (store.channelDirectory channel) location)).map
            (· :: location) ++
          (rest.filter (store.discards tree (store.channelDirectory channel) location)).map
            (· :: location) =
        gone ++ ((name :: rest).filter
          (store.discards tree (store.channelDirectory channel) location)).map (· :: location) := by
      rw [List.append_assoc, ← List.map_append, ← List.filter_append, List.singleton_append]
    rw [whole] at later
    rw [List.mapM_cons]
    refine (Carries.bind sooner ?_).weaken fun _ : True ∧ True => trivial
    exact later.map (store.kept? tree (store.channelDirectory channel) location name :: ·)

/-- The names that are left keep the same versions, since no place that is gone was kept. -/
theorem filterMap_kept?_left {channel : String} (member : channel ∈ store.channels)
    {location : Location} {names : List FileName}
    (shelf : store.shelf tree channel = .ok (location, names)) :
    ((names.filter (· :: location ∉ gone)).map
        (store.kept? tree (store.channelDirectory channel) location)).filterMap id =
      names.filterMap (store.kept? tree (store.channelDirectory channel) location) := by
  rw [List.filterMap_map, List.filterMap_filter]
  refine List.filterMap_congr fun name entry => ?_
  by_cases taken : name :: location ∈ gone
  · simp [taken, kept?_of_mem_gone undisturbed spoilt member shelf entry taken]
  · simp [taken]

omit undisturbed spoilt in
/-- Taking away what is to be discarded of the names that are left is as good as taking away
all that is to be discarded. -/
theorem without_left (discarded : FileName → Bool) (names : List FileName) (location : Location) :
    tree.without (gone ++
        ((names.filter (· :: location ∉ gone)).filter discarded).map (· :: location)) =
      tree.without (gone ++ (names.filter discarded).map (· :: location)) := by
  refine Tree.without_congr fun place => ?_
  simp only [List.mem_append, List.mem_map, List.mem_filter, decide_eq_true_eq]
  constructor
  · rintro (before | ⟨name, ⟨⟨inside, -⟩, discards⟩, rfl⟩)
    · exact .inl before
    · exact .inr ⟨name, ⟨inside, discards⟩, rfl⟩
  · rintro (before | ⟨name, ⟨inside, discards⟩, rfl⟩)
    · exact .inl before
    · by_cases taken : name :: location ∈ gone
      · exact .inl taken
      · exact .inr ⟨name, ⟨⟨inside, taken⟩, discards⟩, rfl⟩

/-- Scanning a channel carries out its verdicts. -/
theorem carries_scanChannel
    (named : ∀ channel ∈ store.channels, Config.isChannelName channel = true) {channel : String}
    (member : channel ∈ store.channels) :
    Carries (store.Readable tree channel) (store.Workable tree gone channel)
      ((store.scanChannel channel).run (tree.without gone))
      (Version.ascending (store.keptIn tree channel))
      (tree.without (gone ++ store.spoiledIn tree channel)) := by
  have same := shelf_without undisturbed spoilt member
  unfold keptIn spoiledIn
  cases shelf : store.shelf tree channel with
  | error cause =>
    rw [shelf] at same
    simp only [List.append_nil]
    by_cases missing : cause = .noEntry
    · subst missing
      rw [Version.ascending_nil]
      refine .inl ⟨fun other found => ?_, run_scanChannel_of_missing same⟩
      rw [shelf] at found
      exact (Except.error.inj found).symm
    · exact .inr ⟨fun workable => missing (workable.readable cause shelf), _, _,
        run_scanChannel_of_error same missing⟩
  | ok entries =>
    obtain ⟨location, names⟩ := entries
    rw [shelf] at same
    rw [run_scanChannel_of_ok same]
    have judges := carries_judges undisturbed spoilt named member shelf
      (names.filter (· :: location ∉ gone)) (List.filter_subset_self _)
    have carried := (judges.mono fun workable : store.Workable tree gone channel =>
        fun name inside => workable.clearable location names shelf name
          (List.mem_of_mem_filter inside)).map
      (fun versions => Version.ascending (versions.filterMap id))
    rw [filterMap_kept?_left undisturbed spoilt member shelf, without_left] at carried
    refine carried.weaken fun _ cause found => ?_
    rw [shelf] at found
    cases found

/-- Scanning channels one after the other carries out their verdicts. -/
theorem carries_scan_from
    (named : ∀ channel ∈ store.channels, Config.isChannelName channel = true)
    (rest : List String) (members : rest ⊆ store.channels) (index : ImageIndex) :
    Carries (∀ channel ∈ rest, store.Readable tree channel)
      (∀ channel ∈ rest, store.Workable tree gone channel)
      ((rest.foldlM (fun index channel => do
          let versions ← store.scanChannel channel
          pure (index.insert channel versions)) index : FileRequest ImageIndex).run
        (tree.without gone))
      (rest.foldl (fun index channel =>
        index.insert channel (Version.ascending (store.keptIn tree channel))) index)
      (tree.without (gone ++ rest.flatMap (store.spoiledIn tree))) := by
  induction rest generalizing gone index with
  | nil =>
    refine .inl ⟨nofun, ?_⟩
    simp
  | cons channel rest inductionHypothesis =>
    have member := members List.mem_cons_self
    have further : gone ++ store.spoiledIn tree channel ⊆ store.spoiled tree :=
      List.append_subset.mpr ⟨spoilt, fun place inside => mem_spoiled.mpr ⟨channel, member, inside⟩⟩
    rw [List.foldlM_cons, List.foldl_cons, List.flatMap_cons, ← List.append_assoc]
    have sooner := (carries_scanChannel undisturbed spoilt named member).mono
      fun possible : ∀ other ∈ channel :: rest, store.Workable tree gone other =>
        possible channel List.mem_cons_self
    have later := (inductionHypothesis further
        (fun other inside => members (List.mem_cons_of_mem _ inside))
        (index.insert channel (Version.ascending (store.keptIn tree channel)))).mono
      fun possible : ∀ other ∈ channel :: rest, store.Workable tree gone other =>
        fun other inside => (possible other (List.mem_cons_of_mem _ inside)).of_subset
          (List.subset_append_left _ _)
    refine (Carries.bind (sooner.map (index.insert channel)) ?_).weaken
      fun ⟨before, after⟩ => List.forall_mem_cons.mpr ⟨before, after⟩
    exact later

end Visit

/-- A scan gives the index of the first look and leaves the tree without the spoiled places,
or the system refuses what it asks for. -/
theorem carries_scan (undisturbed : store.Undisturbed tree)
    (named : ∀ channel ∈ store.channels, Config.isChannelName channel = true) :
    Carries (∀ channel ∈ store.channels, store.Readable tree channel)
      (∀ channel ∈ store.channels, store.Workable tree [] channel) (store.scan.run tree)
      (store.survey tree) (store.swept tree) := by
  have scan := carries_scan_from undisturbed (List.nil_subset _) named store.channels
    (List.Subset.refl _) Keyed.empty
  rwa [Tree.without_nil, List.nil_append] at scan

/-- A scan of the tree that is left finds nothing to take away. -/
theorem run_scan_swept (undisturbed : store.Undisturbed tree)
    (named : ∀ channel ∈ store.channels, Config.isChannelName channel = true)
    (readable : ∀ channel ∈ store.channels, store.Readable tree channel) :
    store.scan.run (store.swept tree) = (.ok (store.survey tree), store.swept tree) := by
  have scan := carries_scan_from undisturbed (List.Subset.refl _) named store.channels
    (List.Subset.refl _) Keyed.empty
  have same : tree.without (store.spoiled tree ++ store.channels.flatMap (store.spoiledIn tree)) =
      store.swept tree :=
    Tree.without_congr fun place => by simp [spoiled]
  rw [same] at scan
  refine scan.of_possible fun channel member => ⟨readable channel member, ?_⟩
  intro location names shelf name entry discarded stays
  exact absurd (mem_spoiled.mpr ⟨channel, member, mem_spoiledIn.mpr
    ⟨location, names, name, shelf, entry, discarded, rfl⟩⟩) stays

end VmFleet.ImageStore
