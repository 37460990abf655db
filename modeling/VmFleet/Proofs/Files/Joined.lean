/-
This file proves what a path leads to that was joined from a directory and a name. The
walk goes on from where the directory is, so what stands at the joined path is what stands
under the name there, if the system takes the path at all.
-/

import VmFleet.Proofs.Files.Path
import VmFleet.Proofs.Files.Resolve
import VmFleet.Proofs.Files.Walk

namespace VmFleet.Tree

variable {tree : Tree} {last : LastStep}

/-- Where the names of a path lead, whatever its last octet is. -/
def namesLead (tree : Tree) (place : Location) (path : Path) : Except Cause Location :=
  tree.walk ⟨true, false⟩ linkLimit (startOf path place) path.names

/-- The system takes a path that has no zero, is not empty and is not too long. -/
def Accepts (path : Path) : Prop :=
  0 ∉ path.octets ∧ path.octets ≠ [] ∧ path.octets.length ≤ pathLimit

theorem resolve_of_accepts {place : Location} {path : Path} (accepted : Accepts path) :
    tree.resolve last place path = tree.walk last linkLimit (startOf path place) path.steps := by
  obtain ⟨whole, nonempty, short⟩ := accepted
  unfold resolve
  rw [if_neg (by simpa using whole), if_neg (by simpa using nonempty), if_neg (Nat.not_lt.mpr short)]

theorem accepts_of_resolve {place location : Location} {path : Path}
    (leads : tree.resolve last place path = .ok location) : Accepts path := by
  unfold resolve at leads
  split at leads
  · cases leads
  split at leads
  · cases leads
  split at leads
  · cases leads
  rename_i whole nonempty short
  exact ⟨by simpa using whole, by simpa using nonempty, Nat.not_lt.mp short⟩

/-- A path leads to a location exactly if the system takes it and its steps lead there. -/
theorem resolve_eq_ok_iff {place location : Location} {path : Path} :
    tree.resolve last place path = .ok location ↔
      Accepts path ∧ tree.Leads last linkLimit (startOf path place) path.steps location := by
  constructor
  · intro leads
    have accepted := accepts_of_resolve leads
    rw [resolve_of_accepts accepted] at leads
    exact ⟨accepted, walk_eq_ok_iff.mp leads⟩
  · rintro ⟨accepted, leads⟩
    rw [resolve_of_accepts accepted]
    exact walk_eq_ok_iff.mpr leads

/-- The names of a path lead where they led before, or to nothing. -/
theorem namesLead_without (tree : Tree) {places : List Location} (proper : [] ∉ places)
    (path : Path) :
    Outlasts places (tree.namesLead [] path) ((tree.without places).namesLead [] path) :=
  walk_without rfl proper linkLimit (not_isUnder_startOf proper (not_isUnder_nil proper) path) _

section Join

variable {directory : Path} {name : FileName}

/-- A joined path that the system takes goes on from where the names of its directory lead. -/
theorem resolve_join (tree : Tree) (last : LastStep) (place : Location) (nonempty : name ≠ [])
    (whole : Path.slash ∉ name) (accepted : Accepts (directory.join ⟨name⟩)) :
    GoesOn tree last [name] (tree.namesLead place directory)
      (tree.resolve last place (directory.join ⟨name⟩)) := by
  have start : startOf (directory.join ⟨name⟩) place = startOf directory place := by
    unfold startOf
    rw [Path.isAbsolute_join whole]
  rw [resolve_of_accepts accepted, start, Path.steps_join nonempty whole]
  exact walk_append (List.cons_ne_nil _ _) _ _ _

/-- A joined path has its names for steps. -/
theorem namesLead_join (tree : Tree) (place : Location) (nonempty : name ≠ [])
    (whole : Path.slash ∉ name)
    (accepted : Accepts (directory.join ⟨name⟩)) :
    tree.namesLead place (directory.join ⟨name⟩) =
      tree.resolve ⟨true, false⟩ place (directory.join ⟨name⟩) := by
  rw [resolve_of_accepts accepted, Path.steps_join nonempty whole]
  unfold namesLead
  rw [Path.names_join nonempty whole]

/-- The system takes a joined path if it takes the directory and the name, and there is room. -/
theorem accepts_join (whole : Path.slash ∉ name) (accepted : Accepts directory) (octets : 0 ∉ name)
    (room : directory.octets.length + 1 + name.length ≤ pathLimit) :
    Accepts (directory.join ⟨name⟩) := by
  obtain ⟨clear, nonempty, -⟩ := accepted
  unfold Accepts
  rcases Path.octets_join directory whole with joined | joined <;> rw [joined]
  · refine ⟨by simp [clear, octets], by simp [nonempty], ?_⟩
    rw [List.length_append]
    omega
  · refine ⟨by simp [clear, octets, Path.slash], by simp, ?_⟩
    rw [List.length_append, List.length_cons]
    omega

/-- Of a joined path that the system takes it takes the directory. -/
theorem accepts_of_join (whole : Path.slash ∉ name) (nonempty : directory.octets ≠ [])
    (accepted : Accepts (directory.join ⟨name⟩)) : Accepts directory := by
  obtain ⟨clear, -, short⟩ := accepted
  rcases Path.octets_join directory whole with joined | joined <;>
    rw [joined, List.length_append] at short <;> rw [joined, List.mem_append, not_or] at clear <;>
    exact ⟨clear.1, nonempty, by omega⟩

end Join

/-- One step under a proper name, looked at and not followed, leads to what stands there. -/
theorem walk_single {links : Nat} {location target : Location} {name : FileName}
    (proper : Path.IsProper name) :
    tree.walk ⟨false, false⟩ links location [name] = .ok target ↔
      name.length ≤ nameLimit ∧ tree.isDirectoryAt location = true ∧ target = name :: location ∧
        tree.find? target ≠ none := by
  rw [walk_eq_ok_iff]
  constructor
  · intro leads
    cases leads with
    | here => exact absurd rfl proper.ne_here
    | above => exact absurd rfl proper.ne_above
    | enter down stands onward =>
      cases onward
      obtain ⟨node, found, -⟩ := stands
      exact ⟨down.short, down.directory, rfl, found ▸ Option.some_ne_none node⟩
    | follow down link followed => cases followed rfl
    | look down link => exact ⟨down.short, down.directory, rfl, link ▸ Option.some_ne_none _⟩
    | free down nothing absent => cases absent
  · rintro ⟨short, directory, rfl, present⟩
    have down : tree.Descends location name := ⟨directory, proper.ne_here, proper.ne_above, short⟩
    obtain ⟨node, found⟩ := Option.ne_none_iff_exists'.mp present
    cases node with
    | link goal => exact .look down found rfl
    | file | directory | special => exact .enter down ⟨_, found, nofun⟩ .done

/-- What a joined path leads to when it is looked at and not followed. -/
theorem resolve_join_eq_ok {place target : Location} {directory : Path} {name : FileName}
    (proper : Path.IsProper name) :
    tree.resolve ⟨false, false⟩ place (directory.join ⟨name⟩) = .ok target ↔
      (Accepts (directory.join ⟨name⟩) ∧ name.length ≤ nameLimit) ∧ ∃ location,
        tree.namesLead place directory = .ok location ∧ tree.isDirectoryAt location = true ∧
          target = name :: location ∧ tree.find? target ≠ none := by
  constructor
  · intro leads
    have accepted := accepts_of_resolve leads
    rcases resolve_join tree ⟨false, false⟩ place proper.nonempty
      proper.whole accepted with ⟨cause, -, failed⟩ | ⟨location, links, outer, walk⟩
    · rw [leads] at failed
      cases failed
    · obtain ⟨short, inside, same, present⟩ := (walk_single proper).mp (walk.symm.trans leads)
      exact ⟨⟨accepted, short⟩, location, outer, inside, same, present⟩
  · rintro ⟨⟨accepted, short⟩, location, outer, inside, same, present⟩
    rcases resolve_join tree ⟨false, false⟩ place proper.nonempty
      proper.whole accepted with ⟨cause, failed, -⟩ | ⟨other, links, reached, walk⟩
    · rw [outer] at failed
      cases failed
    · obtain rfl := Except.ok.inj (outer.symm.trans reached)
      exact walk.trans ((walk_single proper).mpr ⟨short, inside, same, present⟩)

/-- What stands at a joined path. -/
theorem entry_join_eq_ok {place : Location} {directory : Path} {name : FileName} {node : Node}
    (proper : Path.IsProper name) :
    tree.entry place (directory.join ⟨name⟩) = .ok node ↔
      (Accepts (directory.join ⟨name⟩) ∧ name.length ≤ nameLimit) ∧ ∃ location,
        tree.namesLead place directory = .ok location ∧ tree.isDirectoryAt location = true ∧
          tree.find? (name :: location) = some node := by
  rw [entry_eq_ok]
  constructor
  · rintro ⟨target, leads, found⟩
    obtain ⟨possible, location, outer, inside, rfl, -⟩ := (resolve_join_eq_ok proper).mp leads
    exact ⟨possible, location, outer, inside, found⟩
  · rintro ⟨possible, location, outer, inside, found⟩
    refine ⟨name :: location, (resolve_join_eq_ok proper).mpr ⟨possible, location, outer, inside,
      rfl, ?_⟩, found⟩
    rw [found]
    exact nofun

/-- A joined path at which nothing stands leads to nothing. -/
theorem resolve_join_of_entry_error {place : Location} {directory : Path} {name : FileName}
    {cause : Cause} (proper : Path.IsProper name)
    (failed : tree.entry place (directory.join ⟨name⟩) = .error cause) :
    tree.resolve ⟨false, false⟩ place (directory.join ⟨name⟩) = .error cause := by
  cases leads : tree.resolve ⟨false, false⟩ place (directory.join ⟨name⟩) with
  | error other =>
    unfold entry at failed
    rw [leads] at failed
    exact congrArg _ (Except.error.inj failed)
  | ok target =>
    obtain ⟨-, location, -, -, -, present⟩ := (resolve_join_eq_ok proper).mp leads
    obtain ⟨node, found⟩ := Option.ne_none_iff_exists'.mp present
    rw [entry_eq_ok.mpr ⟨target, leads, found⟩] at failed
    cases failed

section Below

variable {place location : Location} {outer : Path} {inner name : FileName}
  (nonempty : inner ≠ []) (whole : Path.slash ∉ inner)
  (leads : tree.resolve ⟨true, false⟩ place (outer.join ⟨inner⟩) = .ok location)
  (inside : tree.isDirectoryAt location = true)

include nonempty whole leads inside

/-- What stands at a path that goes on from a joined one. -/
theorem entry_below {node : Node} (proper : Path.IsProper name) :
    tree.entry place ((outer.join ⟨inner⟩).join ⟨name⟩) = .ok node ↔
      (Accepts ((outer.join ⟨inner⟩).join ⟨name⟩) ∧ name.length ≤ nameLimit) ∧
        tree.find? (name :: location) = some node := by
  have reached := (namesLead_join tree place nonempty whole (accepts_of_resolve leads)).trans leads
  rw [entry_join_eq_ok proper]
  refine and_congr_right fun _ => ⟨?_, fun found => ⟨location, reached, inside, found⟩⟩
  rintro ⟨other, again, -, found⟩
  obtain rfl := Except.ok.inj (reached.symm.trans again)
  exact found

omit inside in
/-- A path that goes on from a joined one to something leads to that place. -/
theorem resolve_of_entry_below {node : Node} (proper : Path.IsProper name)
    (stands : tree.entry place ((outer.join ⟨inner⟩).join ⟨name⟩) = .ok node) :
    tree.resolve ⟨false, false⟩ place ((outer.join ⟨inner⟩).join ⟨name⟩) =
      .ok (name :: location) := by
  have reached := (namesLead_join tree place nonempty whole (accepts_of_resolve leads)).trans leads
  obtain ⟨target, found, -⟩ := entry_eq_ok.mp stands
  obtain ⟨-, other, again, -, rfl, -⟩ := (resolve_join_eq_ok proper).mp found
  obtain rfl := Except.ok.inj (reached.symm.trans again)
  exact found

omit inside in
/-- What is no link can be followed. -/
theorem resolve_below {node : Node} (proper : Path.IsProper name)
    (stands : tree.entry place ((outer.join ⟨inner⟩).join ⟨name⟩) = .ok node)
    (free : ∀ target, node ≠ .link target) :
    tree.resolve ⟨true, false⟩ place ((outer.join ⟨inner⟩).join ⟨name⟩) =
      .ok (name :: location) := by
  rw [resolve_follow fun target link => free target (Except.ok.inj (stands.symm.trans link))]
  exact resolve_of_entry_below nonempty whole leads proper stands

/-- Where a directory holds directories only, a step that stays or goes up leads to a
directory. -/
theorem isProper_of_entry {node : Node} (above : tree.isDirectoryAt location.tail = true)
    (nonempty' : name ≠ []) (whole' : Path.slash ∉ name)
    (stands : tree.entry place ((outer.join ⟨inner⟩).join ⟨name⟩) = .ok node)
    (apart : ∀ modified, node ≠ .directory modified) : Path.IsProper name := by
  have reached := (namesLead_join tree place nonempty whole (accepts_of_resolve leads)).trans leads
  obtain ⟨target, found, there⟩ := entry_eq_ok.mp stands
  have elsewhere : ∀ other, tree.isDirectoryAt other = true → target ≠ other := by
    rintro _ directory rfl
    unfold isDirectoryAt at directory
    rw [there] at directory
    cases node with
    | directory modified => exact apart modified rfl
    | _ => cases directory
  rcases resolve_join tree ⟨false, false⟩ place nonempty' whole'
    (accepts_of_resolve found) with ⟨cause, failed, -⟩ | ⟨other, links, again, walk⟩
  · rw [reached] at failed
    cases failed
  obtain rfl := Except.ok.inj (reached.symm.trans again)
  have walk := walk.symm.trans found
  refine ⟨nonempty', whole', ?_, ?_⟩
  · rintro rfl
    have stays : tree.walk ⟨false, false⟩ links location [Path.here] = .ok location :=
      walk_eq_ok_iff.mpr (.here inside .done)
    exact elsewhere _ inside (Except.ok.inj (walk.symm.trans stays))
  · rintro rfl
    have rises : tree.walk ⟨false, false⟩ links location [Path.above] = .ok location.tail :=
      walk_eq_ok_iff.mpr (.above inside .done)
    exact elsewhere _ above (Except.ok.inj (walk.symm.trans rises))

end Below

end VmFleet.Tree
