/-
This file proves what starting a runner leaves behind. Either its log cannot be opened and no
file changes, or the log is open and the program is looked for. If that cannot be started the
log stays as it was opened; otherwise all that the runner logged is added to it, and among this
are, in their order, the lines that it printed, up to one that is no text.
-/

import VmFleet.Proofs.Files.Contents
import VmFleet.Proofs.Shell.Run
import VmFleet.Runner.Launch

namespace VmFleet.Runner

variable {place : Location} {program script : String} {log : Path} {request : Shell.Request}
  {impatient : Bool} {tree after : Tree} {report : Shell.Report}

/-- How a start ends once the log is open: the program is refused, or its report is added. -/
def StartEnds (place : Location) (program : String) (report : Shell.Report) (location : Location)
    (left : Tree) : Except FleetError Shell.Report × Tree → Prop
  | (.error error, after) => after = left ∧ ∃ cause, startRefusal? left place program = some cause ∧
      error = .io ("spawning " ++ (Path.ofString program).display) cause
  | (.ok answer, after) => startRefusal? left place program = none ∧ answer = report ∧
      ∀ file, after.octetsAt? file =
        (left.octetsAt? file).map (· ++ if location = file then report.logged else [])

/-- A log that cannot be opened is reported first. One that can be opened stood or is new and
empty, and the path of the log leads to it from then on. -/
theorem run_launch (place : Location) (program script : String) (log : Path)
    (request : Shell.Request) (impatient : Bool) (tree : Tree) :
    (∃ cause, (launch place program script log request impatient).run tree =
      (.error (.io ("opening " ++ log.display) cause), tree)) ∨
    ∃ location left, left.resolve ⟨true, false⟩ place log = .ok location ∧
      (left = tree ∨ tree.thingAt? location = none ∧ left = tree.add location (.file [])) ∧
      StartEnds place program (Shell.run script request impatient) location left
        ((launch place program script log request impatient).run tree) := by
  unfold launch
  rw [TreeRequest.run_bind, TreeRequest.run_explain]
  rcases TreeRequest.run_openToAppend place log tree with
    ⟨cause, refused⟩ | ⟨location, left, opened, leads, found⟩
  · rw [refused]
    exact .inl ⟨cause, rfl⟩
  · rw [opened]
    refine .inr ⟨location, left, leads, found.imp And.left id, ?_⟩
    simp only [Except.mapError]
    rw [TreeRequest.run_bind, TreeRequest.run_inspect]
    cases refusal : startRefusal? left place program with
    | some cause => exact ⟨rfl, cause, refusal, rfl⟩
    | none => exact ⟨refusal, rfl, fun file => Tree.octetsAt?_append location file _ left⟩

/-- The log of a runner that was started holds what it held and what was logged after it. All
lines that were followed of what the runner printed are there in their order, and the address is
the first that they report. -/
theorem logs_output_of_launch
    (started : (launch place program script log request impatient).run tree = (.ok report, after)) :
    ((follow report.printed).logged.Sublist report.logged ∧
      report.address = (follow report.printed).address) ∧
    ∃ location left, left.resolve ⟨true, false⟩ place log = .ok location ∧
      (left = tree ∨ tree.thingAt? location = none ∧ left = tree.add location (.file [])) ∧
      (∀ held, left.octetsAt? location = some held →
        after.octetsAt? location = some (held ++ report.logged)) ∧
      ∀ other, other ≠ location → after.octetsAt? other = left.octetsAt? other := by
  rcases run_launch place program script log request impatient tree with
    ⟨cause, refused⟩ | ⟨location, left, leads, opened, ends⟩
  · cases refused.symm.trans started
  · rw [started] at ends
    obtain ⟨-, rfl, holds⟩ := ends
    refine ⟨Shell.runWithin_copies _ _ _ _, location, left, leads, opened, fun held here => ?_,
      fun other elsewhere => ?_⟩
    · rw [holds, here, Option.map_some, if_pos rfl]
    · rw [holds, if_neg (Ne.symm elsewhere)]
      simp

end VmFleet.Runner
