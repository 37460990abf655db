/-
This file proves what lasts where a tree changes. A change spares a tree but for some
places if everything else still stands and is of the kind it was, if no link is new, and
if no way led on from what stood at the places. Then a path that leads past the places
still leads where it led. To make directories and to write files spares the whole tree,
and to take a file away spares everything but the file.
-/

import VmFleet.Proofs.Files.Joined
import VmFleet.Proofs.Files.Request

namespace VmFleet

/-- What kind of thing it is, whatever a file holds and whenever a directory was changed. -/
def Node.kind : Node → Node
  | .file _ => .file []
  | .directory _ => .directory default
  | node => node

/-- No path leads on from it. -/
def Node.isLast : Node → Bool
  | .file _ | .special => true
  | .directory _ | .link _ => false

@[simp]
theorem Node.kind_eq_link {node : Node} {target : Path} :
    node.kind = .link target ↔ node = .link target := by
  cases node <;> simp [kind]

@[simp]
theorem Node.isLast_kind (node : Node) : node.kind.isLast = node.isLast := by
  cases node <;> rfl

namespace Tree

/-- What kind of thing stands at a location. -/
def kindAt? (tree : Tree) (location : Location) : Option Node :=
  (tree.find? location).map Node.kind

/-- A change leaves everything but some places as it was. -/
structure Spares (places : List Location) (before after : Tree) : Prop where
  /-- What stands elsewhere is of the kind it was. -/
  kept : ∀ location kind, isUnder places location = false → before.kindAt? location = some kind →
    after.kindAt? location = some kind
  /-- No path led on from what stood at the places. -/
  last : ∀ place ∈ places, ∀ kind, before.kindAt? place = some kind → kind.isLast = true
  /-- No link is new. -/
  links : ∀ location target, after.kindAt? location = some (.link target) →
    before.kindAt? location = some (.link target)
  held : after.held = before.held

variable {before middle after tree : Tree} {places : List Location} {last : LastStep}

theorem spares_self (tree : Tree) : Spares [] tree tree :=
  ⟨fun _ _ _ same => same, nofun, fun _ _ same => same, rfl⟩

theorem Spares.trans (first : Spares [] before middle) (second : Spares places middle after) :
    Spares places before after where
  kept location kind past same := second.kept location kind past (first.kept location kind rfl same)
  last place member kind same := second.last place member kind (first.kept place kind rfl same)
  links location target link := first.links location target (second.links location target link)
  held := second.held.trans first.held

theorem kindAt?_eq_link {location : Location} {target : Path} :
    tree.kindAt? location = some (.link target) ↔ tree.find? location = some (.link target) := by
  simp [kindAt?]

theorem isDirectoryAt_iff {location : Location} :
    tree.isDirectoryAt location = true ↔ tree.kindAt? location = some (.directory default) := by
  unfold isDirectoryAt kindAt?
  rcases tree.find? location with _ | (_ | _ | _ | _) <;> simp [Node.kind]

/-- Where something stands that is no link, its kind is not that of a link. -/
theorem hasEnd_iff {location : Location} :
    tree.HasEnd location ↔
      ∃ kind, tree.kindAt? location = some kind ∧ ∀ target, kind ≠ .link target := by
  unfold HasEnd kindAt?
  cases tree.find? location <;> simp

section Kept

variable (spares : Spares places before after) {location : Location}
  (past : isUnder places location = false)

include spares past

theorem Spares.isDirectoryAt (inside : before.isDirectoryAt location = true) :
    after.isDirectoryAt location = true :=
  isDirectoryAt_iff.mpr (spares.kept location _ past (isDirectoryAt_iff.mp inside))

theorem Spares.find?_link {target : Path} (link : before.find? location = some (.link target)) :
    after.find? location = some (.link target) :=
  kindAt?_eq_link.mp (spares.kept location _ past (kindAt?_eq_link.mpr link))

theorem Spares.hasEnd (stands : before.HasEnd location) : after.HasEnd location := by
  obtain ⟨kind, found, notLink⟩ := hasEnd_iff.mp stands
  exact hasEnd_iff.mpr ⟨kind, spares.kept location kind past found, notLink⟩

theorem Spares.descends {step : FileName} (down : before.Descends location step) :
    after.Descends location step :=
  { down with directory := spares.isDirectoryAt past down.directory }

end Kept

/-! ### Walks -/

/-- From where no path leads on no step goes on. -/
theorem Leads.eq_of_isLast {links : Nat} {place target : Location} {steps : List FileName}
    {kind : Node} (leads : tree.Leads last links place steps target)
    (found : tree.kindAt? place = some kind) (final : kind.isLast = true) : target = place := by
  have outside : ¬tree.isDirectoryAt place = true := by
    rw [isDirectoryAt_iff, found]
    rintro ⟨⟩
    cases final
  cases leads with
  | done => rfl
  | here directory | above directory => exact absurd directory outside
  | enter down | follow down | look down | free down => exact absurd down.directory outside

/-- Steps that end past the places go down to none of them. -/
theorem Spares.past (spares : Spares places before after) {place target : Location}
    (kept : isUnder places place = false) (stays : isUnder places target = false)
    {step : FileName} {kind : Node} (found : before.kindAt? (step :: place) = some kind)
    (ends : kind.isLast = true → target = step :: place) :
    isUnder places (step :: place) = false := by
  rw [Bool.eq_false_iff]
  intro gone
  obtain ⟨place', member, below⟩ := isUnder_iff.mp gone
  rcases List.suffix_cons_iff.mp below with rfl | above
  · -- this is one of the places, so the steps have ended there
    rw [ends (spares.last _ member kind found), gone] at stays
    cases stays
  · rw [isUnder_iff.mpr ⟨place', member, above⟩] at kept
    cases kept

/-- Steps that lead past the places lead where they led. -/
theorem Spares.leads (spares : Spares places before after) (needed : last.absent = false)
    (proper : [] ∉ places) {links : Nat} {place target : Location} {steps : List FileName}
    (leads : before.Leads last links place steps target) (kept : isUnder places place = false)
    (stays : isUnder places target = false) : after.Leads last links place steps target := by
  induction leads with
  | done => exact .done
  | here directory _ inductionHypothesis =>
    exact .here (spares.isDirectoryAt kept directory) (inductionHypothesis kept stays)
  | above directory _ inductionHypothesis =>
    exact .above (spares.isDirectoryAt kept directory)
      (inductionHypothesis (not_isUnder_tail kept) stays)
  | enter down stands onward inductionHypothesis =>
    obtain ⟨kind, found, -⟩ := hasEnd_iff.mp stands
    have past := spares.past kept stays found (onward.eq_of_isLast found)
    exact .enter (spares.descends kept down) (spares.hasEnd past stands)
      (inductionHypothesis past stays)
  | follow down link followed _ inductionHypothesis =>
    have past := spares.past kept stays (kindAt?_eq_link.mpr link) nofun
    exact .follow (spares.descends kept down) (spares.find?_link past link) followed
      (inductionHypothesis (not_isUnder_startOf proper kept _) stays)
  | look down link looked =>
    exact .look (spares.descends kept down) (spares.find?_link stays link) looked
  | free _ _ absent =>
    rw [needed] at absent
    cases absent

/-- A path that leads past the places leads where it led. -/
theorem Spares.resolve (spares : Spares places before after) (needed : last.absent = false)
    (proper : [] ∉ places) {path : Path} {target : Location}
    (stays : isUnder places target = false) (leads : before.resolve last [] path = .ok target) :
    after.resolve last [] path = .ok target := by
  obtain ⟨accepted, leads⟩ := resolve_eq_ok_iff.mp leads
  have kept := not_isUnder_startOf proper (not_isUnder_nil proper) path
  exact resolve_eq_ok_iff.mpr ⟨accepted, spares.leads needed proper leads kept stays⟩

/-! ### Changes -/

/-- Rows that stay at their places. -/
theorem find?_map_rows {change : Location × Node → Location × Node} {location : Location}
    (places : ∀ row, (change row).1 = row.1) (proper : location ≠ []) :
    Tree.find? { tree with nodes := tree.nodes.map change } location =
      (tree.nodes.find? (·.1 == location)).map fun row => (change row).2 := by
  have same : ((fun row : Location × Node => row.1 == location) ∘ change) =
      (fun row => row.1 == location) := by
    funext row
    exact congrArg (· == location) (places row)
  rw [find?_of_ne_nil proper, List.find?_map, same, Option.map_map]
  rfl

/-- A further row is found where nothing stood. -/
theorem find?_append_row (tree : Tree) (location place : Location) (node : Node) :
    Tree.find? { tree with nodes := tree.nodes ++ [(location, node)] } place =
      (tree.find? place).or (if location = place then some node else none) := by
  cases place with
  | nil => rfl
  | cons name outer =>
    rw [find?_of_ne_nil (List.cons_ne_nil _ _), find?_of_ne_nil (List.cons_ne_nil _ _),
      List.find?_append]
    cases tree.nodes.find? (·.1 == name :: outer) with
    | some row => rfl
    | none =>
      by_cases here : location = name :: outer
      · simp [here]
      · simp [here]

/-- Rows that stay at their places and of their kinds are as good as before. -/
theorem kindAt?_map_rows {change : Location × Node → Location × Node} {location : Location}
    (places : ∀ row, (change row).1 = row.1)
    (kinds : ∀ row ∈ tree.nodes, row.1 = location → tree.find? location = some row.2 →
      (change row).2.kind = row.2.kind) :
    Tree.kindAt? { tree with nodes := tree.nodes.map change } location = tree.kindAt? location := by
  cases location with
  | nil => rfl
  | cons name outer =>
    unfold kindAt?
    rw [find?_of_ne_nil (List.cons_ne_nil _ _)] at kinds
    rw [find?_map_rows places (List.cons_ne_nil _ _), find?_of_ne_nil (List.cons_ne_nil _ _)]
    cases found : tree.nodes.find? (·.1 == name :: outer) with
    | none => rfl
    | some row =>
      have at' := List.find?_some found
      exact congrArg some
        (kinds row (List.mem_of_find?_eq_some found) (eq_of_beq at') (by rw [found]; rfl))

@[simp]
theorem kindAt?_stamp (outer location : Location) :
    (tree.stamp outer).kindAt? location = tree.kindAt? location := by
  refine kindAt?_map_rows (fun row => ?_) fun row _ _ _ => ?_ <;>
  · rcases row with ⟨place, _ | _ | _ | _⟩ <;> try rfl
    all_goals
      simp only
      split <;> rfl

/-- Where something was put it stands, unless something stood there, and elsewhere nothing
is new. -/
theorem kindAt?_add (location place : Location) (node : Node) :
    (tree.add location node).kindAt? place =
      (tree.kindAt? place).or (if location = place then some node.kind else none) := by
  unfold add
  simp only [kindAt?_stamp]
  unfold kindAt?
  rw [find?_append_row, Option.map_or]
  split <;> rfl

/-- To put a thing that is no link somewhere spares the whole tree. -/
theorem spares_add (tree : Tree) (location : Location) {node : Node}
    (free : ∀ target, node ≠ .link target) : Spares [] tree (tree.add location node) := by
  refine ⟨fun place kind _ same => ?_, nofun, fun place target link => ?_, rfl⟩
  · rw [kindAt?_add, same, Option.some_or]
  · rw [kindAt?_add, Option.or_eq_some_iff] at link
    rcases link with link | ⟨-, link⟩
    · exact link
    · split at link
      · exact absurd (Node.kind_eq_link.mp (Option.some.inj link)) (free target)
      · cases link

/-- To put a file in place of a file spares the whole tree. -/
theorem spares_replace {location : Location} {content octets : List UInt8}
    (found : tree.find? location = some (.file content)) :
    Spares [] tree (tree.replace location (.file octets)) := by
  have same : ∀ place, (tree.replace location (.file octets)).kindAt? place = tree.kindAt? place := by
    intro place
    refine kindAt?_map_rows (fun row => rfl) fun row _ at' stands => ?_
    simp only
    split
    · rename_i here
      rw [← at', here, found] at stands
      rw [← Option.some.inj stands]
      rfl
    · rfl
  exact ⟨fun place _ _ => (same place).trans, nofun, fun place _ => (same place).symm.trans, rfl⟩

/-- To take something away from which no path leads on spares everything else. -/
theorem spares_prune {location : Location} {node : Node} (found : tree.find? location = some node)
    (final : node.isLast = true) : Spares [location] tree (tree.prune location) := by
  have stamp : ∀ now place node, (stamped now [location] place node).kind = node.kind := by
    intro now place node
    cases node <;> rfl
  have same : ∀ place, isUnder [location] place = false →
      (tree.prune location).kindAt? place = tree.kindAt? place := by
    intro place past
    unfold kindAt?
    rw [prune_eq_without, find?_without past, Option.map_map]
    exact congrArg (Option.map · _) (funext (stamp _ _))
  refine ⟨fun place kind past => (same place past).trans, ?_, fun place target link => ?_, rfl⟩
  · intro place member kind stands
    obtain rfl := List.mem_singleton.mp member
    rw [kindAt?, found] at stands
    obtain rfl := Option.some.inj stands
    rw [Node.isLast_kind, final]
  · cases past : isUnder [location] place with
    | false => exact (same place past).symm.trans link
    | true =>
      cases place with
      | nil => cases link
      | cons name outer =>
        rw [kindAt?, prune_eq_without, find?_without_of_isUnder tree (List.cons_ne_nil _ _) past] at link
        cases link

end Tree

namespace TreeRequest

variable {ε δ α β : Type} {tree : Tree}

/-- Whatever becomes of the request, it spares the whole tree. -/
def Grows (request : TreeRequest ε α) : Prop :=
  ∀ tree : Tree, tree.Spares [] (request.run tree).2

theorem grows_pure (value : α) : Grows (pure value : TreeRequest ε α) :=
  Tree.spares_self

theorem grows_throw (error : ε) : Grows (throw error : TreeRequest ε α) :=
  Tree.spares_self

theorem grows_inspect (question : Tree → Except ε α) : Grows (inspect question) := by
  intro tree
  rw [run_inspect]
  exact Tree.spares_self tree

theorem Grows.attempt {request : TreeRequest ε α} (grows : Grows request) :
    Grows (attempt request : TreeRequest δ (Except ε α)) :=
  grows

theorem Grows.bind {request : TreeRequest ε α} {next : α → TreeRequest ε β}
    (first : Grows request) (second : ∀ value, Grows (next value)) : Grows (request >>= next) := by
  intro tree
  have left := first tree
  rw [run_bind]
  rcases result : request.run tree with ⟨error | value, after⟩
  · rwa [result] at left
  · rw [result] at left
    exact left.trans (second value after)

/-! ### Directories and files are made -/

theorem grows_makeDirectory (place : Location) (path : Path) : Grows (makeDirectory place path) := by
  refine (grows_inspect _).bind fun location => (grows_inspect _).bind fun stands => ?_
  cases stands with
  | some node => exact grows_throw _
  | none => exact fun tree => Tree.spares_add tree location (by exact nofun)

theorem grows_makeDirectoryOnce (place : Location) (path : Path) :
    Grows (makeDirectoryOnce place path) := by
  refine (grows_makeDirectory place path).attempt.bind fun outcome => ?_
  rcases outcome with cause | _
  · cases cause
    case alreadyThere =>
      refine (grows_inspect _).bind fun directory => ?_
      cases directory
      · exact grows_throw _
      · exact grows_pure _
    all_goals exact grows_throw _
  · exact grows_pure _

theorem grows_makeDirectories (place : Location) (absolute : Bool) (parts : List FileName) :
    Grows (makeDirectories place absolute parts) := by
  induction parts with
  | nil => exact grows_pure _
  | cons part parts inductionHypothesis =>
    refine (grows_makeDirectoryOnce place _).attempt.bind fun outcome => ?_
    rcases outcome with cause | _
    · cases cause
      case noEntry => exact inductionHypothesis.bind fun _ => grows_makeDirectoryOnce place _
      all_goals exact grows_throw _
    · exact grows_pure _

theorem grows_makePath (place : Location) (path : Path) : Grows (makePath place path) := by
  unfold makePath
  split
  · exact grows_throw _
  · exact grows_makeDirectories place _ _

theorem grows_openToAppend (place : Location) (path : Path) : Grows (openToAppend place path) := by
  refine (grows_inspect _).bind fun location => ?_
  split
  · exact grows_throw _
  refine (grows_inspect _).bind fun stands => ?_
  rcases stands with _ | (_ | _ | _ | _)
  · refine Grows.bind (fun tree => Tree.spares_add tree location (by exact nofun)) fun _ => ?_
    exact grows_pure _
  · exact grows_pure _
  · exact grows_throw _
  · exact grows_pure _
  · exact grows_pure _

theorem grows_writeFile (place : Location) (path : Path) (octets : List UInt8) :
    Grows (writeFile place path octets) := by
  refine (grows_openToAppend place path).bind fun location tree => ?_
  rw [run_change]
  split
  · rename_i content found
    exact Tree.spares_replace found
  · exact Tree.spares_self tree

end TreeRequest

end VmFleet
