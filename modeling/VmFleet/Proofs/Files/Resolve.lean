/-
This file proves how following a path depends on the tree. Once places are gone a path
leads where it led before, or to nothing; it never leads to something new, since a link
that is left says what it said. A walk of two rows of steps goes on from where the first row led,
and only a link in the last place makes a difference between following a path and looking
at it.
-/

import VmFleet.Proofs.Files.Removal

namespace VmFleet.Tree

variable {tree : Tree} {places : List Location} {last : LastStep}

/-! ### When places are gone -/

/-- What a path leads to once places are gone: nothing, or what it led to before, which is
then not gone. -/
def Outlasts (places : List Location) (before after : Except Cause Location) : Prop :=
  after = .error .noEntry ∨
    after = before ∧ ∀ location, after = .ok location → isUnder places location = false

theorem Outlasts.ok {location : Location} (kept : isUnder places location = false) :
    Outlasts places (.ok location) (.ok location) :=
  .inr ⟨rfl, fun _ same => Except.ok.inj same ▸ kept⟩

theorem Outlasts.error (cause : Cause) : Outlasts places (.error cause) (.error cause) :=
  .inr ⟨rfl, nofun⟩

/-- What a path still leads to is what it led to, and is not gone. -/
theorem Outlasts.eq_of_ok {before after : Except Cause Location} {location : Location}
    (outlasts : Outlasts places before after) (found : after = .ok location) :
    before = .ok location ∧ isUnder places location = false := by
  rcases outlasts with missing | ⟨same, kept⟩
  · rw [missing] at found
    cases found
  · exact ⟨same ▸ found, kept location found⟩

theorem not_isUnder_startOf (proper : [] ∉ places) {place : Location}
    (kept : isUnder places place = false) (path : Path) :
    isUnder places (startOf path place) = false := by
  unfold startOf
  split
  · exact not_isUnder_nil proper
  · exact kept

theorem walkSteps_without (needed : last.absent = false)
    {atLink atLink' : Location → List FileName → Except Cause Location}
    (links : ∀ place steps, isUnder places place = false →
      Outlasts places (atLink place steps) (atLink' place steps))
    (proper : [] ∉ places) {place : Location} (kept : isUnder places place = false)
    (steps : List FileName) :
    Outlasts places (tree.walkSteps last atLink place steps)
      ((tree.without places).walkSteps last atLink' place steps) := by
  induction steps generalizing place with
  | nil => exact .ok kept
  | cons step steps inductionHypothesis =>
    unfold walkSteps
    rw [isDirectoryAt_without kept]
    split
    · exact .error _
    split
    · exact inductionHypothesis kept
    split
    · exact inductionHypothesis (not_isUnder_tail kept)
    split
    · exact .error _
    by_cases gone : isUnder places (step :: place) = true
    · rw [find?_without_of_isUnder tree (List.cons_ne_nil _ _) gone, needed, Bool.and_false]
      exact .inl rfl
    · rw [Bool.not_eq_true] at gone
      rw [find?_without gone, needed, Bool.and_false]
      rcases tree.find? (step :: place) with _ | (_ | _ | target | _)
      · exact .error _
      · exact inductionHypothesis gone
      · exact inductionHypothesis gone
      · simp only [Option.map_some, stamped]
        split
        · exact .ok gone
        · exact links _ _ (not_isUnder_startOf proper kept target)
      · exact inductionHypothesis gone

theorem walk_without (needed : last.absent = false) (proper : [] ∉ places) (links : Nat)
    {place : Location} (kept : isUnder places place = false) (steps : List FileName) :
    Outlasts places (tree.walk last links place steps)
      ((tree.without places).walk last links place steps) := by
  induction links generalizing place steps with
  | zero => exact walkSteps_without needed (fun _ _ _ => .error _) proper kept steps
  | succ links inductionHypothesis =>
    exact walkSteps_without needed (fun _ steps kept => inductionHypothesis kept steps) proper kept
      steps

/-- A path leads where it led before, or to nothing. -/
theorem resolve_without (tree : Tree) (last : LastStep) (needed : last.absent = false)
    (proper : [] ∉ places) (path : Path) :
    Outlasts places (tree.resolve last [] path) ((tree.without places).resolve last [] path) := by
  unfold resolve
  split
  · exact .error _
  split
  · exact .error _
  split
  · exact .error _
  exact walk_without needed proper linkLimit
    (not_isUnder_startOf proper (not_isUnder_nil proper) path) _

/-- Where a path leads with all places or with none of them gone, it leads while some of them
are left. -/
theorem resolve_of_subset (tree : Tree) {others : List Location} (needed : last.absent = false)
    (proper : [] ∉ others) (subset : places ⊆ others) {path : Path}
    (same : (tree.without others).resolve last [] path = tree.resolve last [] path) :
    (tree.without places).resolve last [] path = tree.resolve last [] path := by
  have before := resolve_without tree last needed (fun inside => proper (subset inside)) path
  have after := resolve_without (tree.without places) last needed proper path
  rw [← without_of_subset subset, same] at after
  rcases before with missing | ⟨kept, -⟩
  · rcases after with absent | ⟨kept, -⟩
    · rw [missing, absent]
    · exact kept.symm
  · exact kept

/-- A path leads to a file if one stands where it leads. -/
theorem isFile_iff {place : Location} {path : Path} :
    tree.isFile place path = true ↔ ∃ location content,
      tree.resolve ⟨true, false⟩ place path = .ok location ∧
        tree.find? location = some (.file content) := by
  unfold isFile status
  rcases tree.resolve ⟨true, false⟩ place path with cause | location
  · simp [bind, Except.bind]
  · simp only [bind, Except.bind, Except.ok.injEq]
    rcases found : tree.find? location with _ | (_ | _ | _ | _) <;> simp [found]

/-- A path that leads to a file led to one before. -/
theorem isFile_of_without (proper : [] ∉ places) {path : Path}
    (file : (tree.without places).isFile [] path = true) : tree.isFile [] path = true := by
  obtain ⟨location, content, leads, found⟩ := isFile_iff.mp file
  obtain ⟨before, kept⟩ := (resolve_without tree ⟨true, false⟩ rfl proper path).eq_of_ok leads
  exact isFile_iff.mpr ⟨location, content, before, (find?_without_eq_file kept).mp found⟩

/-! ### Walking on -/

/-- A walk that goes on from where another one ended: it fails as that one, or it is the
walk of the rest with some links left. -/
def GoesOn (tree : Tree) (last : LastStep) (rest : List FileName)
    (front whole : Except Cause Location) : Prop :=
  (∃ cause, front = .error cause ∧ whole = .error cause) ∨
    ∃ location links, front = .ok location ∧ whole = tree.walk last links location rest

theorem walkSteps_append {rest : List FileName} (more : rest ≠ [])
    {atLink atLink' : Location → List FileName → Except Cause Location}
    (links : ∀ place steps,
      GoesOn tree last rest (atLink place steps) (atLink' place (steps ++ rest)))
    (walks : ∃ links, ∀ place,
      tree.walkSteps last atLink' place rest = tree.walk last links place rest)
    (place : Location) (front : List FileName) :
    GoesOn tree last rest (tree.walkSteps ⟨true, false⟩ atLink place front)
      (tree.walkSteps last atLink' place (front ++ rest)) := by
  induction front generalizing place with
  | nil =>
    obtain ⟨links, walks⟩ := walks
    exact .inr ⟨place, links, rfl, walks place⟩
  | cons step front inductionHypothesis =>
    have unfinished : (front ++ rest).isEmpty = false := by simp [more]
    rw [List.cons_append]
    unfold walkSteps
    split
    · exact .inl ⟨_, rfl, rfl⟩
    split
    · exact inductionHypothesis place
    split
    · exact inductionHypothesis place.tail
    split
    · exact .inl ⟨_, rfl, rfl⟩
    rw [unfinished, Bool.false_and, Bool.false_and]
    simp only [Bool.and_false, Bool.not_true]
    rcases tree.find? (step :: place) with _ | (_ | _ | target | _)
    · exact .inl ⟨_, rfl, rfl⟩
    · exact inductionHypothesis _
    · exact inductionHypothesis _
    · show GoesOn tree last rest (atLink _ _) (atLink' _ _)
      rw [← List.append_assoc]
      exact links _ _
    · exact inductionHypothesis _

/-- A walk of two rows of steps goes on from where the first row leads. -/
theorem walk_append {rest : List FileName} (more : rest ≠ []) (links : Nat) (place : Location)
    (front : List FileName) :
    GoesOn tree last rest (tree.walk ⟨true, false⟩ links place front)
      (tree.walk last links place (front ++ rest)) := by
  induction links generalizing place front with
  | zero => exact walkSteps_append more (fun _ _ => .inl ⟨_, rfl, rfl⟩) ⟨0, fun _ => rfl⟩ place front
  | succ links inductionHypothesis =>
    exact walkSteps_append more inductionHypothesis ⟨links + 1, fun _ => rfl⟩ place front

/-! ### Looking at a path itself -/

/-- What a path leads to when a link in its last place is not followed. -/
def entry (tree : Tree) (place : Location) (path : Path) : Except Cause Node := do
  let location ← tree.resolve ⟨false, false⟩ place path
  match tree.find? location with
  | some node => .ok node
  | none => .error .noEntry

theorem entry_eq_ok {place : Location} {path : Path} {node : Node} :
    tree.entry place path = .ok node ↔ ∃ location,
      tree.resolve ⟨false, false⟩ place path = .ok location ∧ tree.find? location = some node := by
  unfold entry
  rcases tree.resolve ⟨false, false⟩ place path with cause | location
  · simp [bind, Except.bind]
  · simp only [bind, Except.bind, Except.ok.injEq]
    rcases found : tree.find? location with _ | node <;> simp [found]

/-- Where no link stands last, following makes no difference. -/
def LinkFree (tree : Tree) (outcome : Except Cause Location) : Prop :=
  ∀ location target, outcome = .ok location → tree.find? location ≠ some (.link target)

theorem walkSteps_follow {atLink atLink' : Location → List FileName → Except Cause Location}
    (links : ∀ place steps, tree.LinkFree (atLink place steps) →
      atLink' place steps = atLink place steps)
    {place : Location} {steps : List FileName}
    (free : tree.LinkFree (tree.walkSteps ⟨false, false⟩ atLink place steps)) :
    tree.walkSteps ⟨true, false⟩ atLink' place steps =
      tree.walkSteps ⟨false, false⟩ atLink place steps := by
  induction steps generalizing place with
  | nil => rfl
  | cons step steps inductionHypothesis =>
    unfold walkSteps at free ⊢
    split
    · rfl
    rename_i directory
    rw [if_neg directory] at free
    split
    · rename_i stays
      rw [if_pos stays] at free
      exact inductionHypothesis free
    rename_i moves
    rw [if_neg moves] at free
    split
    · rename_i rises
      rw [if_pos rises] at free
      exact inductionHypothesis free
    rename_i descends
    rw [if_neg descends] at free
    split
    · rfl
    rename_i short
    rw [if_neg short] at free
    simp only [Bool.not_true, Bool.not_false, Bool.and_false, Bool.and_true] at free ⊢
    rcases found : tree.find? (step :: place) with _ | (_ | _ | target | _) <;>
      rw [found] at free <;> simp only at free ⊢
    · exact inductionHypothesis free
    · exact inductionHypothesis free
    · split at free
      · exact absurd found (free _ _ rfl)
      · rename_i unfinished
        rw [if_neg unfinished, if_neg (by exact nofun)]
        exact links _ _ free
    · exact inductionHypothesis free

theorem walk_follow {links : Nat} {place : Location} {steps : List FileName}
    (free : tree.LinkFree (tree.walk ⟨false, false⟩ links place steps)) :
    tree.walk ⟨true, false⟩ links place steps = tree.walk ⟨false, false⟩ links place steps := by
  induction links generalizing place steps with
  | zero => exact walkSteps_follow (fun _ _ _ => rfl) free
  | succ links inductionHypothesis =>
    exact walkSteps_follow (fun _ _ free => inductionHypothesis free) free

/-- A path at which no link stands leads to what stands at it. -/
theorem resolve_follow {place : Location} {path : Path}
    (free : ∀ target, tree.entry place path ≠ .ok (.link target)) :
    tree.resolve ⟨true, false⟩ place path = tree.resolve ⟨false, false⟩ place path := by
  have free : tree.LinkFree (tree.resolve ⟨false, false⟩ place path) :=
    fun location target leads found => free target (entry_eq_ok.mpr ⟨location, leads, found⟩)
  unfold resolve at free ⊢
  split
  · rfl
  rename_i whole
  rw [if_neg whole] at free
  split
  · rfl
  rename_i nonempty
  rw [if_neg nonempty] at free
  split
  · rfl
  rename_i short
  rw [if_neg short] at free
  exact walk_follow free

/-- A path that is no link leads to a file if it is one. -/
theorem isFile_iff_entry {place : Location} {path : Path}
    (free : ∀ target, tree.entry place path ≠ .ok (.link target)) :
    tree.isFile place path = true ↔ ∃ content, tree.entry place path = .ok (.file content) := by
  rw [isFile_iff, resolve_follow free]
  simp only [entry_eq_ok]
  exact ⟨fun ⟨location, content, found⟩ => ⟨content, location, found⟩,
    fun ⟨content, location, found⟩ => ⟨location, content, found⟩⟩

end VmFleet.Tree
