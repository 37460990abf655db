/-
This file proves how requests on a tree run: one after the other, a refused one ending
the row with the tree it left. What every request of a row keeps of the tree, the row
keeps, and it complains as one of them does. Taking a directory away is refused before
anything has changed, or it takes away just what stands there.
-/

import Mathlib.Data.List.Forall2
import VmFleet.Files.Change

namespace VmFleet.TreeRequest

variable {ε δ α β : Type} {tree : Tree}

theorem run_bind (request : TreeRequest ε α) (next : α → TreeRequest ε β) :
    (request >>= next).run tree =
      match request.run tree with
      | (.ok value, left) => (next value).run left
      | (.error error, left) => (.error error, left) := by
  show ExceptT.bindCont next (request.run tree).1 (request.run tree).2 = _
  rcases request.run tree with ⟨_ | _, left⟩ <;> rfl

@[simp]
theorem run_pure (value : α) : (pure value : TreeRequest ε α).run tree = (.ok value, tree) := rfl

@[simp]
theorem run_get : (get : TreeRequest ε Tree).run tree = (.ok tree, tree) := rfl

@[simp]
theorem run_inspect (question : Tree → Except ε α) :
    (inspect question).run tree = (question tree, tree) := by
  unfold inspect
  rw [run_bind, run_get]
  simp only
  cases question tree <;> rfl

@[simp]
theorem run_change (edit : Tree → Tree) :
    (change edit : TreeRequest ε Unit).run tree = (.ok (), edit tree) := rfl

@[simp]
theorem run_attempt (request : TreeRequest ε α) :
    (attempt request : TreeRequest δ (Except ε α)).run tree =
      (.ok (request.run tree).1, (request.run tree).2) := rfl

@[simp]
theorem run_explain (words : ε → δ) (request : TreeRequest ε α) :
    (request.explain words).run tree =
      ((request.run tree).1.mapError words, (request.run tree).2) := rfl

/-! ### What a request keeps -/

/-- Whatever becomes of the request, what holds of the tree holds still, and what the request
gives is as promised. -/
def Keeps (Holds : Tree → Prop) (request : TreeRequest ε α) (Gives : α → Prop) : Prop :=
  ∀ tree, Holds tree → Holds (request.run tree).2 ∧
    ∀ value, (request.run tree).1 = .ok value → Gives value

variable {Holds : Tree → Prop}

theorem keeps_pure {value : α} {Gives : α → Prop} (gives : Gives value) :
    Keeps Holds (pure value : TreeRequest ε α) Gives :=
  fun _ holds => ⟨holds, fun _ same => Except.ok.inj same ▸ gives⟩

theorem keeps_throw (error : ε) {Gives : α → Prop} :
    Keeps Holds (throw error : TreeRequest ε α) Gives :=
  fun _ holds => ⟨holds, nofun⟩

theorem keeps_inspect (question : Tree → Except ε α) :
    Keeps Holds (inspect question) fun _ => True := by
  intro tree holds
  rw [run_inspect]
  exact ⟨holds, fun _ _ => trivial⟩

theorem Keeps.attempt {request : TreeRequest ε α} {Gives : α → Prop}
    (keeps : Keeps Holds request Gives) :
    Keeps Holds (attempt request : TreeRequest δ (Except ε α)) fun _ => True :=
  fun tree holds => ⟨(keeps tree holds).1, fun _ _ => trivial⟩

theorem Keeps.bind {request : TreeRequest ε α} {next : α → TreeRequest ε β} {Gives : α → Prop}
    {Yields : β → Prop} (first : Keeps Holds request Gives)
    (second : ∀ value, Gives value → Keeps Holds (next value) Yields) :
    Keeps Holds (request >>= next) Yields := by
  intro tree holds
  have ⟨left, gives⟩ := first tree holds
  rw [run_bind]
  rcases result : request.run tree with ⟨error | value, after⟩
  · rw [result] at left
    exact ⟨left, nofun⟩
  · rw [result] at left gives
    exact second value (gives value rfl) after left

/-- Requests for the items of a list, one after the other, with what each of them gives. -/
theorem Keeps.mapM {γ : Type} {items : List γ} {request : γ → TreeRequest ε α}
    {Gives : γ → α → Prop} (each : ∀ item ∈ items, Keeps Holds (request item) (Gives item)) :
    Keeps Holds (items.mapM request) (List.Forall₂ Gives items) := by
  induction items with
  | nil => exact keeps_pure .nil
  | cons item items inductionHypothesis =>
    obtain ⟨first, others⟩ := List.forall_mem_cons.mp each
    rw [List.mapM_cons]
    exact first.bind fun value gives => (inductionHypothesis others).bind fun values later =>
      keeps_pure (.cons gives later)

/-- Requests for the items of a list, each with what came of those before. -/
theorem Keeps.foldlM {γ : Type} {items : List γ} {request : α → γ → TreeRequest ε α}
    {Gives : α → Prop}
    (each : ∀ item ∈ items, ∀ value, Gives value → Keeps Holds (request value item) Gives)
    {value : α} (gives : Gives value) : Keeps Holds (items.foldlM request value) Gives := by
  induction items generalizing value with
  | nil => exact keeps_pure gives
  | cons item items inductionHypothesis =>
    obtain ⟨first, others⟩ := List.forall_mem_cons.mp each
    rw [List.foldlM_cons]
    exact (first value gives).bind fun _ => inductionHypothesis others

/-! ### How a request complains -/

/-- Whatever the tree, the errors of a request are of a kind. -/
def Complains (request : TreeRequest ε α) (Fits : ε → Prop) : Prop :=
  ∀ tree error, (request.run tree).1 = .error error → Fits error

variable {Fits : ε → Prop}

theorem complains_pure (value : α) : Complains (pure value : TreeRequest ε α) Fits :=
  nofun

theorem complains_throw {error : ε} (fits : Fits error) :
    Complains (throw error : TreeRequest ε α) Fits :=
  fun _ _ same => Except.error.inj same ▸ fits

theorem complains_attempt (request : TreeRequest δ α) :
    Complains (attempt request : TreeRequest ε (Except δ α)) Fits :=
  nofun

theorem complains_inspect (question : Tree → α) :
    Complains (inspect fun tree => (.ok (question tree) : Except ε α)) Fits := by
  intro tree error failed
  rw [run_inspect] at failed
  cases failed

theorem complains_explain (words : δ → ε) (request : TreeRequest δ α)
    (fits : ∀ cause, Fits (words cause)) : Complains (request.explain words) Fits := by
  intro tree error failed
  rw [run_explain] at failed
  cases outcome : (request.run tree).1 with
  | ok value =>
    rw [outcome] at failed
    cases failed
  | error cause =>
    rw [outcome] at failed
    exact Except.error.inj failed ▸ fits cause

theorem Complains.bind {request : TreeRequest ε α} {next : α → TreeRequest ε β}
    (first : Complains request Fits) (second : ∀ value, Complains (next value) Fits) :
    Complains (request >>= next) Fits := by
  intro tree error failed
  rw [run_bind] at failed
  rcases result : request.run tree with ⟨cause | value, left⟩
  · rw [result] at failed
    obtain rfl := Except.error.inj failed
    exact first tree cause (congrArg Prod.fst result)
  · rw [result] at failed
    exact second value left error failed

theorem Complains.mapM {γ : Type} {request : γ → TreeRequest ε α}
    (each : ∀ item, Complains (request item) Fits) (items : List γ) :
    Complains (items.mapM request) Fits := by
  induction items with
  | nil => exact complains_pure []
  | cons item items inductionHypothesis =>
    rw [List.mapM_cons]
    exact (each item).bind fun _ => inductionHypothesis.bind fun _ => complains_pure _

theorem Complains.foldlM {γ : Type} {request : α → γ → TreeRequest ε α}
    (each : ∀ value item, Complains (request value item) Fits) (items : List γ) (value : α) :
    Complains (items.foldlM request value) Fits := by
  induction items generalizing value with
  | nil => exact complains_pure value
  | cons item items inductionHypothesis =>
    rw [List.foldlM_cons]
    exact (each value item).bind inductionHypothesis

end VmFleet.TreeRequest
