/-
This file proves what files hold while directories are made and files are opened and written.
To make directories puts directories where nothing stood and changes nothing else. A file that
was opened to append to it stands where its path leads from then on, empty if it is new. To
append changes the content of that file only.
-/

import Mathlib.Data.List.DropRight
import VmFleet.Proofs.Files.Persistence

namespace VmFleet

/-- A path without names has slashes only. -/
theorem Path.eq_slash_of_names_eq_nil {path : Path} (nameless : path.names = []) {octet : UInt8}
    (member : octet ∈ path.octets) : octet = Path.slash := by
  obtain ⟨octets⟩ := path
  unfold names at nameless
  simp only at nameless member
  induction octets with
  | nil => cases member
  | cons first octets inductionHypothesis =>
    rw [pieces] at nameless
    by_cases cut : first = slash
    · rw [if_pos cut, List.filter_cons_of_neg (by decide)] at nameless
      rcases List.mem_cons.mp member with rfl | later
      · exact cut
      · exact inductionHypothesis nameless later
    · rw [if_neg cut] at nameless
      split at nameless <;> simp at nameless

/-- What it is, with what a file holds, whenever a directory was changed. -/
def Node.unstamped : Node → Node
  | .directory _ => .directory default
  | node => node

namespace Tree

/-- What stands at a location, whenever a directory was changed. -/
def thingAt? (tree : Tree) (location : Location) : Option Node :=
  (tree.find? location).map Node.unstamped

/-- The octets of the file at a location. -/
def octetsAt? (tree : Tree) (location : Location) : Option (List UInt8) :=
  match tree.find? location with
  | some (.file content) => some content
  | _ => none

variable {tree before middle after : Tree} {location target : Location}

theorem octetsAt?_eq_some {octets : List UInt8} :
    tree.octetsAt? location = some octets ↔ tree.thingAt? location = some (.file octets) := by
  unfold octetsAt? thingAt?
  rcases tree.find? location with _ | (_ | _ | _ | _) <;> simp [Node.unstamped]

theorem thingAt?_eq_none : tree.thingAt? location = none ↔ tree.find? location = none := by
  unfold thingAt?
  exact Option.map_eq_none_iff

/-! ### Single changes -/

@[simp]
theorem thingAt?_stamp (outer location : Location) :
    (tree.stamp outer).thingAt? location = tree.thingAt? location := by
  cases location with
  | nil => rfl
  | cons name above =>
    unfold thingAt? stamp
    rw [find?_map_rows (fun row => by rcases row with ⟨place, _ | _ | _ | _⟩ <;> rfl)
      (List.cons_ne_nil _ _), find?_of_ne_nil (List.cons_ne_nil _ _), Option.map_map, Option.map_map]
    refine congrArg (Option.map · _) (funext fun row => ?_)
    rcases row with ⟨place, _ | _ | _ | _⟩ <;> try rfl
    simp only [Function.comp]
    split <;> rfl

/-- Where something was put it stands, unless something stood there, and elsewhere nothing
changes. -/
theorem thingAt?_add (location place : Location) (node : Node) :
    (tree.add location node).thingAt? place =
      (tree.thingAt? place).or (if location = place then some node.unstamped else none) := by
  unfold add
  simp only [thingAt?_stamp]
  unfold thingAt?
  rw [find?_append_row, Option.map_or]
  split <;> rfl

/-- A file that was put in place of another one stands there, and nothing else changes. -/
theorem thingAt?_replace {content : List UInt8} (octets : List UInt8)
    (found : tree.find? location = some (.file content)) (place : Location) :
    (tree.replace location (.file octets)).thingAt? place =
      if place = location then some (.file octets) else tree.thingAt? place := by
  cases place with
  | nil =>
    rw [if_neg (by rintro rfl; cases found)]
    rfl
  | cons name outer =>
    have places : ∀ row : Location × Node,
        (row.1, if row.1 = location then Node.file octets else row.2).1 = row.1 := fun _ => rfl
    unfold thingAt? replace
    rw [find?_map_rows places (List.cons_ne_nil _ _), find?_of_ne_nil (List.cons_ne_nil _ _)]
    by_cases here : name :: outer = location
    · subst here
      rw [find?_of_ne_nil (List.cons_ne_nil _ _)] at found
      obtain ⟨row, first, -⟩ := Option.map_eq_some_iff.mp found
      have at' : row.1 = name :: outer := by simpa using List.find?_some first
      simp [first, at', Node.unstamped]
    · rw [if_neg here, Option.map_map, Option.map_map]
      refine Option.map_congr fun row first => ?_
      have at' : row.1 = name :: outer := by simpa using List.find?_some first
      simp only [Function.comp, at', if_neg here]

/-- What is appended stands at the end of the file, and nothing else changes. -/
theorem thingAt?_append (location place : Location) (octets : List UInt8) (tree : Tree) :
    ((TreeRequest.append location octets).run tree).2.thingAt? place =
      match tree.octetsAt? location with
      | some content =>
        if place = location then some (.file (content ++ octets)) else tree.thingAt? place
      | none => tree.thingAt? place := by
  unfold TreeRequest.append octetsAt?
  rw [TreeRequest.run_change]
  rcases found : tree.find? location with _ | (content | _ | _ | _)
  · rfl
  · exact thingAt?_replace (content ++ octets) found place
  · rfl
  · rfl
  · rfl

/-- What every file holds after something was appended to one of them. -/
theorem octetsAt?_append (location place : Location) (octets : List UInt8) (tree : Tree) :
    ((TreeRequest.append location octets).run tree).2.octetsAt? place =
      (tree.octetsAt? place).map (· ++ if location = place then octets else []) := by
  refine Option.ext fun held => ?_
  rw [octetsAt?_eq_some, thingAt?_append]
  cases found : tree.octetsAt? location with
  | none =>
    by_cases here : location = place
    · subst here
      simp [← octetsAt?_eq_some, found]
    · simp [← octetsAt?_eq_some, here]
  | some content =>
    by_cases here : location = place
    · subst here
      simp [found]
    · simp [← octetsAt?_eq_some, here, Ne.symm here]

/-- What is no file stays as it is where something is appended. -/
theorem thingAt?_append_of_octetsAt?_eq_none (place : Location) (octets : List UInt8)
    (free : tree.octetsAt? place = none) :
    ((TreeRequest.append location octets).run tree).2.thingAt? place = tree.thingAt? place := by
  rw [thingAt?_append]
  cases found : tree.octetsAt? location with
  | none => rfl
  | some content =>
    refine if_neg ?_
    rintro rfl
    rw [free] at found
    cases found

theorem thingAt?_append_eq_none {place : Location} {octets : List UInt8} :
    ((TreeRequest.append location octets).run tree).2.thingAt? place = none ↔
      tree.thingAt? place = none := by
  cases found : tree.octetsAt? place with
  | none => rw [thingAt?_append_of_octetsAt?_eq_none place octets found]
  | some held =>
    have now : ((TreeRequest.append location octets).run tree).2.octetsAt? place = some _ :=
      (octetsAt?_append location place octets tree).trans (congrArg (Option.map _) found)
    rw [octetsAt?_eq_some.mp found, octetsAt?_eq_some.mp now]
    exact iff_of_false nofun nofun

/-! ### Directories are made -/

/-- Directories were made where nothing stood, and nothing else changed. -/
def GainsDirectories (before after : Tree) : Prop :=
  ∀ location, after.thingAt? location = before.thingAt? location ∨
    before.thingAt? location = none ∧ after.thingAt? location = some (.directory default)

theorem gainsDirectories_self (tree : Tree) : tree.GainsDirectories tree :=
  fun _ => .inl rfl

/-- One more directory where nothing stands. -/
theorem GainsDirectories.add (gains : before.GainsDirectories middle)
    (free : middle.find? location = none) :
    before.GainsDirectories (middle.add location (.directory middle.now)) := by
  intro place
  rw [thingAt?_add]
  by_cases here : location = place
  · subst here
    have nothing := thingAt?_eq_none.mpr free
    rw [nothing, if_pos rfl]
    rcases gains location with same | ⟨-, there⟩
    · exact .inr ⟨same ▸ nothing, rfl⟩
    · rw [nothing] at there
      cases there
  · rw [if_neg here, Option.or_none]
    exact gains place

/-- No file changes where directories are made. -/
theorem GainsDirectories.octetsAt? (gains : before.GainsDirectories after) (location : Location) :
    after.octetsAt? location = before.octetsAt? location := by
  refine Option.ext fun octets => ?_
  rw [octetsAt?_eq_some, octetsAt?_eq_some]
  rcases gains location with same | ⟨nothing, directory⟩
  · rw [same]
  · rw [nothing, directory]
    exact iff_of_false nofun nofun

/-! ### A walk that may end where nothing stands -/

/-- Steps that led where nothing needed to stand lead there once something stands there. -/
theorem Spares.leads_reached (spares : Spares [] before after) {follow : Bool} {links : Nat}
    {place : Location} {steps : List FileName}
    (leads : before.Leads ⟨follow, true⟩ links place steps target)
    (stands : after.kindAt? target ≠ none) :
    after.Leads ⟨follow, false⟩ links place steps target := by
  induction leads with
  | done => exact .done
  | here directory _ inductionHypothesis =>
    exact .here (spares.isDirectoryAt rfl directory) (inductionHypothesis stands)
  | above directory _ inductionHypothesis =>
    exact .above (spares.isDirectoryAt rfl directory) (inductionHypothesis stands)
  | enter down found _ inductionHypothesis =>
    exact .enter (spares.descends rfl down) (spares.hasEnd rfl found) (inductionHypothesis stands)
  | follow down link followed _ inductionHypothesis =>
    exact .follow (spares.descends rfl down) (spares.find?_link rfl link) followed
      (inductionHypothesis stands)
  | look down link looked =>
    exact .look (spares.descends rfl down) (spares.find?_link rfl link) looked
  | free down nothing _ =>
    -- what stands there now is no link, as no link is new
    obtain ⟨kind, now⟩ := Option.ne_none_iff_exists'.mp stands
    refine .enter (spares.descends rfl down) (hasEnd_iff.mpr ⟨kind, now, ?_⟩) .done
    rintro goal rfl
    have old := kindAt?_eq_link.mp (spares.links _ _ now)
    cases nothing.symm.trans old

/-- A path that led where nothing needed to stand leads there once something stands there. -/
theorem Spares.resolve_reached (spares : Spares [] before after) {follow : Bool}
    (stands : after.kindAt? target ≠ none) {place : Location} {path : Path}
    (leads : before.resolve ⟨follow, true⟩ place path = .ok target) :
    after.resolve ⟨follow, false⟩ place path = .ok target := by
  obtain ⟨accepted, leads⟩ := resolve_eq_ok_iff.mp leads
  exact resolve_eq_ok_iff.mpr ⟨accepted, spares.leads_reached leads stands⟩

end Tree

namespace TreeRequest

variable {Holds : Tree → Prop} {place : Location} {path : Path}

section Directories

variable (adds : ∀ tree location, Holds tree → tree.find? location = none →
  Holds (tree.add location (.directory tree.now)))

include adds

theorem keeps_makeDirectory : Keeps Holds (makeDirectory place path) fun _ => True := by
  intro tree holds
  unfold makeDirectory
  rw [run_bind, run_inspect]
  rcases tree.resolve ⟨false, true⟩ place (withoutTrailingSlash path) with cause | location
  · exact ⟨holds, fun _ _ => trivial⟩
  · simp only
    rw [run_bind, run_inspect]
    cases free : tree.find? location with
    | some node => exact ⟨holds, fun _ _ => trivial⟩
    | none => exact ⟨adds tree location holds free, fun _ _ => trivial⟩

theorem keeps_makeDirectoryOnce : Keeps Holds (makeDirectoryOnce place path) fun _ => True := by
  refine (keeps_makeDirectory adds).attempt.bind fun outcome _ => ?_
  rcases outcome with cause | _
  · cases cause
    case alreadyThere =>
      refine (keeps_inspect _).bind fun directory _ => ?_
      cases directory
      · exact keeps_throw _
      · exact keeps_pure trivial
    all_goals exact keeps_throw _
  · exact keeps_pure trivial

theorem keeps_makeDirectories (absolute : Bool) (parts : List FileName) :
    Keeps Holds (makeDirectories place absolute parts) fun _ => True := by
  induction parts with
  | nil => exact keeps_pure trivial
  | cons part parts inductionHypothesis =>
    refine (keeps_makeDirectoryOnce adds).attempt.bind fun outcome _ => ?_
    rcases outcome with cause | _
    · cases cause
      case noEntry => exact inductionHypothesis.bind fun _ _ => keeps_makeDirectoryOnce adds
      all_goals exact keeps_throw _
    · exact keeps_pure trivial

/-- What every new directory keeps, making a path keeps. -/
theorem keeps_makePath : Keeps Holds (makePath place path) fun _ => True := by
  unfold makePath
  split
  · exact keeps_throw _
  · exact keeps_makeDirectories adds _ _

end Directories

/-- To make a path makes directories and changes nothing else. -/
theorem gainsDirectories_makePath (place : Location) (path : Path) (tree : Tree) :
    tree.GainsDirectories ((makePath place path).run tree).2 :=
  (keeps_makePath (fun _ _ gains free => gains.add free) tree tree.gainsDirectories_self).1

/-! ### A file is opened -/

/-- A path that does not ask for a directory has no slashes to leave out. -/
theorem withoutTrailingSlash_of_file (file : path.asksForDirectory = false) :
    withoutTrailingSlash path = path := by
  have cut : (path.octets.reverse.dropWhile (· == Path.slash)).reverse =
      path.octets.rdropWhile (· == Path.slash) := rfl
  unfold withoutTrailingSlash
  rw [cut]
  cases named : path.names.isEmpty with
  | true =>
    have slashes : path.octets.rdropWhile (· == Path.slash) = [] :=
      List.rdropWhile_eq_nil_iff.mpr fun octet member =>
        beq_iff_eq.mpr (Path.eq_slash_of_names_eq_nil (List.isEmpty_iff.mp named) member)
    rw [slashes]
  | false =>
    have whole : path.octets.rdropWhile (· == Path.slash) = path.octets := by
      refine List.rdropWhile_eq_self_iff.mpr fun nonempty last => ?_
      rw [Path.asksForDirectory, named, List.getLast?_eq_some_getLast nonempty,
        eq_of_beq last] at file
      cases file
    rw [whole]
    split
    · rfl
    · rfl

/-- What it comes to to open a file: it is refused and nothing has changed, or the path leads to
it from then on, and it stood there and is no directory, or it is new and empty. -/
theorem run_openToAppend (place : Location) (path : Path) (tree : Tree) :
    (∃ cause, (openToAppend place path).run tree = (.error cause, tree)) ∨
    ∃ location left, (openToAppend place path).run tree = (.ok location, left) ∧
      left.resolve ⟨true, false⟩ place path = .ok location ∧
      (left = tree ∧ (∃ node, tree.thingAt? location = some node ∧ ∀ at', node ≠ .directory at') ∨
        tree.thingAt? location = none ∧ left = tree.add location (.file [])) := by
  unfold openToAppend
  rw [run_bind, run_inspect]
  cases asks : path.asksForDirectory with
  | true =>
    rcases tree.resolve ⟨true, true⟩ place (withoutTrailingSlash path) with cause | location
    · exact .inl ⟨cause, rfl⟩
    · exact .inl ⟨.isDirectory, rfl⟩
  | false =>
    rw [withoutTrailingSlash_of_file asks]
    cases leads : tree.resolve ⟨true, true⟩ place path with
    | error cause => exact .inl ⟨cause, rfl⟩
    | ok location =>
      simp only [Bool.false_eq_true, if_false]
      rw [run_bind, run_inspect]
      cases found : tree.find? location with
      | none =>
        have new : (tree.add location (.file [])).kindAt? location ≠ none := by
          rw [Tree.kindAt?_add, if_pos rfl]
          cases tree.kindAt? location <;> exact Option.some_ne_none _
        have spares : tree.Spares [] (tree.add location (.file [])) :=
          tree.spares_add location (by simp)
        exact .inr ⟨location, _, rfl, spares.resolve_reached new leads,
          .inr ⟨Tree.thingAt?_eq_none.mpr found, rfl⟩⟩
      | some node =>
        have stands : tree.kindAt? location ≠ none := by
          rw [Tree.kindAt?, found]
          exact Option.some_ne_none _
        have reached := (Tree.spares_self tree).resolve_reached stands leads
        have thing : tree.thingAt? location = some node.unstamped := by
          rw [Tree.thingAt?, found]
          rfl
        cases node with
        | directory modified => exact .inl ⟨.isDirectory, rfl⟩
        | file | link | special =>
          exact .inr ⟨location, tree, rfl, reached, .inl ⟨rfl, _, thing, by simp [Node.unstamped]⟩⟩

end TreeRequest

end VmFleet
