/-
This file says which way a walk takes that arrives. The walk is a recursion on the steps inside a
recursion on the links that may still be followed. Its way is one inductive relation, with a
case for each thing that a step can be, so what is true of every walk that arrives is proved by
one induction on the way.
-/

import VmFleet.Files.Resolve

namespace VmFleet.Tree

/-- Something stands at the location, and it is no link. -/
def HasEnd (tree : Tree) (location : Location) : Prop :=
  ∃ node, tree.find? location = some node ∧ ∀ target, node ≠ .link target

theorem hasEnd_of_isDirectoryAt {tree : Tree} {location : Location}
    (directory : tree.isDirectoryAt location = true) : tree.HasEnd location := by
  unfold isDirectoryAt at directory
  split at directory
  · rename_i modified found
    exact ⟨_, found, nofun⟩
  · cases directory

theorem HasEnd.startOf {tree : Tree} {place : Location} (stands : tree.HasEnd place)
    (path : Path) : tree.HasEnd (startOf path place) := by
  unfold Tree.startOf
  split
  · exact hasEnd_of_isDirectoryAt rfl
  · exact stands

/-- A step goes from a directory down to what may stand there under a name. -/
structure Descends (tree : Tree) (place : Location) (step : FileName) : Prop where
  directory : tree.isDirectoryAt place = true
  ne_here : step ≠ Path.here
  ne_above : step ≠ Path.above
  short : step.length ≤ nameLimit

/-- From a place the steps lead to a location, through at most so many links. -/
inductive Leads (tree : Tree) (last : LastStep) : Nat → Location → List FileName → Location → Prop
  /-- No step is left. -/
  | done {links place} : Leads tree last links place [] place
  /-- A step stays. -/
  | here {links place steps location} (directory : tree.isDirectoryAt place = true)
      (onward : Leads tree last links place steps location) :
      Leads tree last links place (Path.here :: steps) location
  /-- A step goes up. -/
  | above {links place steps location} (directory : tree.isDirectoryAt place = true)
      (onward : Leads tree last links place.tail steps location) :
      Leads tree last links place (Path.above :: steps) location
  /-- A step goes down to something that is no link. -/
  | enter {links place step steps location} (down : tree.Descends place step)
      (stands : tree.HasEnd (step :: place))
      (onward : Leads tree last links (step :: place) steps location) :
      Leads tree last links place (step :: steps) location
  /-- A step meets a link, and the steps of its target come first. -/
  | follow {links place step steps target location} (down : tree.Descends place step)
      (link : tree.find? (step :: place) = some (.link target))
      (followed : steps = [] → last.follow = true)
      (onward : Leads tree last links (startOf target place) (target.steps ++ steps) location) :
      Leads tree last (links + 1) place (step :: steps) location
  /-- The last step meets a link that is not followed. -/
  | look {links place step target} (down : tree.Descends place step)
      (link : tree.find? (step :: place) = some (.link target)) (looked : last.follow = false) :
      Leads tree last links place [step] (step :: place)
  /-- The last step goes where nothing stands and nothing needs to stand. -/
  | free {links place step} (down : tree.Descends place step)
      (nothing : tree.find? (step :: place) = none) (absent : last.absent = true) :
      Leads tree last links place [step] (step :: place)

variable {tree : Tree} {last : LastStep} {links : Nat} {place location : Location}
  {step : FileName} {steps : List FileName}

/-- A walk that arrives takes such a way if it does so from every link. -/
theorem leads_of_walkSteps {atLink : Location → List FileName → Except Cause Location}
    (through : ∀ place steps, atLink place steps = .ok location →
      ∃ fewer, links = fewer + 1 ∧ tree.Leads last fewer place steps location)
    (arrives : tree.walkSteps last atLink place steps = .ok location) :
    tree.Leads last links place steps location := by
  induction steps generalizing place with
  | nil =>
    obtain rfl := Except.ok.inj arrives
    exact .done
  | cons step steps inductionHypothesis =>
    unfold walkSteps at arrives
    split at arrives
    · cases arrives
    rename_i directory
    have directory : tree.isDirectoryAt place = true := by simpa using directory
    split at arrives
    · rename_i stays
      subst stays
      exact .here directory (inductionHypothesis arrives)
    split at arrives
    · rename_i rises
      subst rises
      exact .above directory (inductionHypothesis arrives)
    split at arrives
    · cases arrives
    rename_i notHere notAbove notLong
    have down : tree.Descends place step := ⟨directory, notHere, notAbove, Nat.not_lt.mp notLong⟩
    split at arrives
    · rename_i nothing
      split at arrives
      · rename_i ends
        obtain ⟨rfl, absent⟩ : steps = [] ∧ last.absent = true := by simpa using ends
        obtain rfl := Except.ok.inj arrives
        exact .free down nothing absent
      · cases arrives
    · rename_i target link
      split at arrives
      · rename_i ends
        obtain ⟨rfl, looked⟩ : steps = [] ∧ last.follow = false := by simpa using ends
        obtain rfl := Except.ok.inj arrives
        exact .look down link looked
      · rename_i unfinished
        obtain ⟨fewer, rfl, onward⟩ := through _ _ arrives
        exact .follow down link (by simpa using unfinished) onward
    · rename_i node notLink found
      exact .enter down ⟨node, found, notLink⟩ (inductionHypothesis arrives)

/-- What a walk does at a step that stays. -/
theorem walk_here (directory : tree.isDirectoryAt place = true) :
    tree.walk last links place (Path.here :: steps) = tree.walk last links place steps := by
  cases links <;>
  · rw [walk, walkSteps, directory, if_neg (by decide), if_pos rfl]

/-- What a walk does at a step that goes up. -/
theorem walk_above (directory : tree.isDirectoryAt place = true) :
    tree.walk last links place (Path.above :: steps) = tree.walk last links place.tail steps := by
  cases links <;>
  · rw [walk, walkSteps, directory, if_neg (by decide), if_neg (by decide), if_pos rfl]

/-- What a walk does at a step that goes down. -/
theorem walk_of_descends (down : tree.Descends place step) :
    tree.walk last links place (step :: steps) =
      match tree.find? (step :: place) with
      | none =>
        if steps.isEmpty && last.absent then .ok (step :: place) else .error .noEntry
      | some (.link target) =>
        if steps.isEmpty && !last.follow then .ok (step :: place)
        else match links with
          | 0 => .error .linkLoop
          | links + 1 => tree.walk last links (startOf target place) (target.steps ++ steps)
      | some _ => tree.walk last links (step :: place) steps := by
  cases links <;>
  · rw [walk, walkSteps, down.directory, if_neg (by decide), if_neg down.ne_here,
      if_neg down.ne_above]
    refine (if_neg (Nat.not_lt.mpr down.short)).trans ?_
    rcases tree.find? (step :: place) with _ | (_ | _ | _ | _) <;> rfl

/-- A walk arrives exactly where its way leads. -/
theorem walk_eq_ok_iff :
    tree.walk last links place steps = .ok location ↔ tree.Leads last links place steps location := by
  constructor
  · intro arrives
    induction links generalizing place steps with
    | zero => exact leads_of_walkSteps (fun _ _ impossible => by cases impossible) arrives
    | succ links inductionHypothesis =>
      exact leads_of_walkSteps (fun _ _ onward => ⟨links, rfl, inductionHypothesis onward⟩) arrives
  · intro leads
    induction leads with
    | @done links place => cases links <;> rfl
    | here directory _ inductionHypothesis => rwa [walk_here directory]
    | above directory _ inductionHypothesis => rwa [walk_above directory]
    | enter down stands _ inductionHypothesis =>
      obtain ⟨node, found, notLink⟩ := stands
      rw [walk_of_descends down, found]
      cases node with
      | link target => exact absurd rfl (notLink target)
      | _ => exact inductionHypothesis
    | follow down link followed _ inductionHypothesis =>
      rw [walk_of_descends down, link]
      exact (if_neg (by simpa using followed)).trans inductionHypothesis
    | look down link looked =>
      rw [walk_of_descends down, link, looked]
      rfl
    | free down nothing absent =>
      rw [walk_of_descends down, nothing, absent]
      rfl

end VmFleet.Tree
