/-
This file proves that the paths of volumes mean the same to the client and to the daemon. A path
that is settled where the client stands becomes the text of the path of a location. If every name
on the way is one that a text writes, the text leads from everywhere to what the path led to, and
settling it again changes nothing. Otherwise it leads straight to something else or nowhere.
-/

import VmFleet.Program.Conversation
import VmFleet.Proofs.Client.Talk
import VmFleet.Proofs.Files.Canonical

namespace VmFleet

open VmFleet.Text

/-! ### One path -/

namespace Client

variable {tree : Tree} {place location : Location} {path : Path} {text : String}

/-- The text that is made of a path where the client stands, and the location that the path leads
to. The text writes a settled path to the location exactly if there are texts for all its names;
then it means the same everywhere, and stays the same when it is settled again. -/
structure Settles (tree : Tree) (place : Location) (path : Path) (text : String)
    (location : Location) : Prop where
  leads : tree.resolve ⟨true, false⟩ place path = .ok location
  ends : tree.HasEnd location
  straight : tree.IsSettled (Path.ofString text) location ↔
    ∀ name ∈ location, (⟨name⟩ : Path).IsText
  denotes : (∀ name ∈ location, (⟨name⟩ : Path).IsText) →
    ∀ other, tree.status other (Path.ofString text) = tree.status place path
  again : (∀ name ∈ location, (⟨name⟩ : Path).IsText) →
    ∀ other, absolutize tree other (Path.ofString text) = .ok text

theorem absolutize_eq_ok : absolutize tree place path = .ok text ↔
    ∃ settled, tree.canonical place path = .ok settled ∧ settled.display = text := by
  unfold absolutize
  cases tree.canonical place path with
  | error cause => simp
  | ok settled => simp

/-- A path is settled exactly if it leads somewhere and the path to there is not too long. -/
theorem exists_absolutize_iff : (∃ text, absolutize tree place path = .ok text) ↔
    ∃ location, tree.resolve ⟨true, false⟩ place path = .ok location ∧
      (Tree.pathOf location).octets.length ≤ Tree.pathLimit := by
  have made : (∃ text, absolutize tree place path = .ok text) ↔
      ∃ settled, tree.canonical place path = .ok settled := by
    simp only [absolutize_eq_ok]
    exact ⟨fun ⟨_, settled, made, _⟩ => ⟨settled, made⟩, fun ⟨settled, made⟩ => ⟨_, settled, made, rfl⟩⟩
  rw [made]
  unfold Tree.canonical
  cases tree.resolve ⟨true, false⟩ place path with
  | error cause => simp [bind, Except.bind]
  | ok location =>
    simp only [bind, Except.bind]
    split <;> simp_all

/-- Something that a text leads straight to has names that texts write. -/
theorem isText_of_isSettled (settled : tree.IsSettled (Path.ofString text) location) :
    ∀ name ∈ location, (⟨name⟩ : Path).IsText := by
  intro name member
  have step : name ∈ (Path.ofString text).steps := by
    rwa [settled.steps_eq, List.mem_reverse]
  have proper := settled.proper name step
  refine Path.IsText.of_mem_names ⟨text, rfl⟩ ((List.mem_append.mp step).resolve_right fun last => ?_)
  split at last
  · exact proper.ne_here (List.mem_singleton.mp last)
  · cases last

/-- What a text says that was made of a path. -/
theorem exists_settles (kept : tree.IsKept) (made : absolutize tree place path = .ok text) :
    ∃ location, Settles tree place path text location := by
  obtain ⟨settled, canonical, shown⟩ := absolutize_eq_ok.mp made
  obtain ⟨location, leads, rfl, straight, again⟩ := kept.canonical_eq_ok canonical
  have ends := kept.hasEnd_of_resolve leads
  obtain ⟨node, found, -⟩ := id ends
  have proper : ∀ name ∈ location, Path.IsProper name :=
    fun name member => (kept.isPossible found member).proper
  have written : (∀ name ∈ location, (⟨name⟩ : Path).IsText) →
      Path.ofString text = Tree.pathOf location := by
    intro texts
    rw [← shown]
    exact ((Tree.isText_pathOf_iff proper).mpr texts).ofString_display
  refine ⟨location, leads, ends, ⟨isText_of_isSettled, fun texts => ?_⟩, fun texts other => ?_,
    fun texts other => ?_⟩
  · rw [written texts]
    exact straight
  · unfold Tree.status
    rw [written texts, straight.leads other, leads]
  · rw [written texts]
    exact absolutize_eq_ok.mpr ⟨_, again other, shown⟩

end Client

/-! ### The paths of a draft -/

namespace Program

open Client

variable {standpoint : Standpoint}

/-- The paths of a row are settled exactly if each of them is. -/
theorem mapM_eq_ok_iff {ε α β : Type} {make : α → Except ε β} {items : List α} {values : List β} :
    items.mapM make = .ok values ↔
      List.Forall₂ (fun item value => make item = .ok value) items values := by
  induction items generalizing values with
  | nil => cases values <;> simp [pure, Except.pure]
  | cons item items inductionHypothesis =>
    rw [List.mapM_cons]
    cases first : make item with
    | error error => cases values <;> simp [bind, Except.bind, first]
    | ok value =>
      cases rest : items.mapM make with
      | error error =>
        cases values <;> simp [bind, Except.bind, ← inductionHypothesis, first, rest]
      | ok further =>
        cases values <;>
          simp [bind, Except.bind, pure, Except.pure, ← inductionHypothesis, first, rest]

/-- What need not be there is made just if it is there. -/
theorem rel_of_mapM {ε α β : Type} {make : α → Except ε β} {Means : α → β → Prop}
    (means : ∀ item value, make item = .ok value → Means item value) {item : Option α}
    {value : Option β} (made : item.mapM make = .ok value) : Option.Rel Means item value := by
  cases item with
  | none =>
    obtain rfl := Except.ok.inj made
    exact .none
  | some item =>
    have made : (make item).map some = .ok value := made
    cases single : make item with
    | error error =>
      rw [single] at made
      cases made
    | ok found =>
      rw [single] at made
      obtain rfl := Except.ok.inj made
      exact .some (means item found single)

/-- What a draft has for a path of the request. -/
def Standpoint.Sends (standpoint : Standpoint) (path text : String) : Prop :=
  ∃ location, Settles standpoint.tree standpoint.place (Path.ofString path) text location

theorem Standpoint.sends_of_settled (kept : standpoint.tree.IsKept) {path text : String}
    (settled : standpoint.settled path = .ok text) : standpoint.Sends path text :=
  exists_settles kept settled

/-- A draft has the volumes and the disc of the request, settled one by one. -/
theorem settled_of_draftFor {state : Type} {link : Link (StateM state)} {session : Session}
    {request : CommandLine.RunRequest} {vm : Vm}
    (yields : Yields (draftFor link standpoint session request) vm) :
    request.attached.mapM standpoint.settled = .ok vm.storage ∧
      request.cdrom.mapM standpoint.settled = .ok vm.cdrom := by
  obtain ⟨version, -, asked⟩ := yields.of_bind
  have settling : Yields (do
      let storage ← settle (request.attached.mapM standpoint.settled)
      let cdrom ← settle (request.cdrom.mapM standpoint.settled)
      pure (request.draft version storage cdrom) : Talk (StateM state) Vm) vm := by
    -- the identity is asked for or not, and then the paths are settled
    split at asked
    · obtain ⟨_, -, goesOn⟩ := asked.of_bind
      exact goesOn
    · exact asked
  obtain ⟨storage, volumes, goesOn⟩ := settling.of_bind
  obtain ⟨cdrom, disc, drafted⟩ := goesOn.of_bind
  obtain rfl := drafted.eq_of_pure
  exact ⟨volumes.eq_ok, disc.eq_ok⟩

/-- A path is settled unless it leads nowhere or too far. The text that is made of it writes a
settled path to what it leads to exactly if there are texts for all names on the way; and then it
means the same everywhere and is not changed again. The volumes and the disc of every draft are
such texts. -/
theorem settled_paths_denote (standpoint : Standpoint) (kept : standpoint.tree.IsKept) :
    (∀ place path, (∃ text, absolutize standpoint.tree place path = .ok text) ↔
      ∃ location, standpoint.tree.resolve ⟨true, false⟩ place path = .ok location ∧
        (Tree.pathOf location).octets.length ≤ Tree.pathLimit) ∧
    (∀ place path text, absolutize standpoint.tree place path = .ok text →
      ∃ location, Settles standpoint.tree place path text location) ∧
    ∀ (state : Type) (link : Link (StateM state)) (session : Session)
      (request : CommandLine.RunRequest) (vm : Vm),
      Yields (draftFor link standpoint session request) vm →
      List.Forall₂ standpoint.Sends request.attached vm.storage ∧
        Option.Rel standpoint.Sends request.cdrom vm.cdrom := by
  refine ⟨fun _ _ => exists_absolutize_iff, fun _ _ _ => exists_settles kept, ?_⟩
  intro state link session request vm yields
  obtain ⟨volumes, disc⟩ := settled_of_draftFor yields
  refine ⟨(mapM_eq_ok_iff.mp volumes).imp fun _ _ => Standpoint.sends_of_settled kept, ?_⟩
  exact rel_of_mapM (fun _ _ => Standpoint.sends_of_settled kept) disc

/-- A tree with a volume, and a link to it from elsewhere. -/
def linkedVolume : Tree :=
  ⟨[([octetsOf "vm"], .directory default), ([octetsOf "root.img", octetsOf "vm"], .file []),
    ([octetsOf "latest"], .link (Path.ofString "vm/./root.img"))], default, []⟩

/-- A client that stands in the directory of the volume. -/
def besideVolume : Standpoint :=
  ⟨linkedVolume, [octetsOf "vm"], ⟨none, none, none, none⟩⟩

/-- A request to boot from the volume by way of the link. -/
def bootsLatest : CommandLine.RunRequest :=
  ⟨"alpha", "1.0.0", Vm.randomUuid, "", 1024, 1, some "../latest", [], none, "", []⟩

theorem settled_paths_denote_of_linkedVolume :
    absolutize linkedVolume [octetsOf "vm"] (Path.ofString "../latest") = .ok "/vm/root.img" ∧
      linkedVolume.IsSettled (Path.ofString "/vm/root.img") [octetsOf "root.img", octetsOf "vm"] ∧
      absolutize linkedVolume [] (Path.ofString "/vm/root.img") = .ok "/vm/root.img" ∧
      besideVolume.Sends "../latest" "/vm/root.img" := by
  obtain ⟨-, each, drafts⟩ := settled_paths_denote besideVolume (by decide +kernel)
  have made : absolutize linkedVolume [octetsOf "vm"] (Path.ofString "../latest") =
      .ok "/vm/root.img" := by
    decide +kernel
  have there : linkedVolume.resolve ⟨true, false⟩ [octetsOf "vm"] (Path.ofString "../latest") =
      .ok [octetsOf "root.img", octetsOf "vm"] := by
    decide +kernel
  have yields : Yields (draftFor (Link.silent : Link (StateM Unit)) besideVolume
      ⟨"", 0, ⟨"", "", 0, 0⟩⟩ bootsLatest) (bootsLatest.draft "1.0.0" ["/vm/root.img"] none) := by
    refine ⟨"", (), "", (), ?_⟩
    show @Eq ((Except FleetError Vm × String) × Unit) _ _
    decide +kernel
  obtain ⟨location, settles⟩ := each _ _ _ made
  obtain rfl := Except.ok.inj (settles.leads.symm.trans there)
  have texts : ∀ name ∈ [octetsOf "root.img", octetsOf "vm"], (⟨name⟩ : Path).IsText :=
    List.forall_mem_cons.mpr ⟨⟨_, rfl⟩, List.forall_mem_singleton.mpr ⟨_, rfl⟩⟩
  obtain ⟨sent, -⟩ := drafts _ _ _ _ _ yields
  exact ⟨made, settles.straight.mpr texts, settles.again texts [], (List.forall₂_cons.mp sent).1⟩

/-- A tree with a volume whose name is no text, one whose name is what that name shows as, and a
link to the first. -/
def likeNamed : Tree :=
  ⟨[([[0x76, 0x6F, 0x6C, 0x2D, 0xFF]], .file [1]), ([octetsOf "vol-\uFFFD"], .file [2]),
    ([octetsOf "latest"], .link ⟨[0x76, 0x6F, 0x6C, 0x2D, 0xFF]⟩)], default, []⟩

/-- A name that is no text is turned into another one, which may be that of another volume. -/
theorem absolutize_names_another_volume :
    likeNamed.IsKept ∧
      absolutize likeNamed [] (Path.ofString "latest") = .ok "/vol-\uFFFD" ∧
      likeNamed.status [] (Path.ofString "latest") = .ok (.file [1]) ∧
      likeNamed.status [] (Path.ofString "/vol-\uFFFD") = .ok (.file [2]) := by
  refine ⟨by decide +kernel, by decide +kernel, by decide +kernel, by decide +kernel⟩

end Program

end VmFleet
