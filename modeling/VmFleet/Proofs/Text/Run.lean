/-
This file proves where runs of characters end. A reader that takes all characters of a kind
takes exactly the front part of a text that has only such characters and is followed by
another one or by nothing. Trimming is the same at both ends: what is left neither starts
nor ends with a blank, and blanks around it are all that is lost.
-/

import Mathlib.Data.List.TakeWhile
import VmFleet.Text.Blank
import VmFleet.Text.Reader

namespace VmFleet.Text

/-! ### Runs -/

/-- The text does not go on with a character of the kind. -/
def EndsRun (kind : Char → Bool) (text : List Char) : Prop :=
  ∀ character ∈ text.head?, kind character = false

theorem endsRun_nil (kind : Char → Bool) : EndsRun kind [] :=
  nofun

theorem endsRun_cons {kind : Char → Bool} {character : Char} {text : List Char} :
    EndsRun kind (character :: text) ↔ kind character = false := by
  unfold EndsRun
  simp

theorem endsRun_dropWhile (kind : Char → Bool) (text : List Char) :
    EndsRun kind (text.dropWhile kind) := by
  intro character first
  have stops := List.head?_dropWhile_not kind text
  rw [Option.mem_def.mp first] at stops
  exact stops

theorem EndsRun.dropWhile_eq {kind : Char → Bool} {text : List Char} (ends : EndsRun kind text) :
    text.dropWhile kind = text := by
  cases text with
  | nil => rfl
  | cons character text => rw [List.dropWhile_cons, endsRun_cons.mp ends]; rfl

/-- A run that is taken from a text is all there is of it, and the rest goes on otherwise. -/
theorem takeWhile_drop_iff {kind : Char → Bool} {text front rest : List Char} :
    text.takeWhile kind = front ∧ text.drop front.length = rest ↔
      text = front ++ rest ∧ (∀ character ∈ front, kind character = true) ∧ EndsRun kind rest := by
  constructor
  · rintro ⟨rfl, rfl⟩
    have rest : text.drop (text.takeWhile kind).length = text.dropWhile kind :=
      (congrArg (List.drop _) text.takeWhile_append_dropWhile.symm).trans List.drop_left
    rw [rest]
    exact ⟨text.takeWhile_append_dropWhile.symm, fun _ member => List.mem_takeWhile_imp member,
      endsRun_dropWhile kind text⟩
  · rintro ⟨rfl, all, ends⟩
    have nothing : rest.takeWhile kind = [] := by
      cases rest with
      | nil => rfl
      | cons character rest => rw [List.takeWhile_cons, endsRun_cons.mp ends]; rfl
    rw [List.takeWhile_append_of_pos all, nothing, List.append_nil, List.drop_left]
    exact ⟨rfl, rfl⟩

theorem readCharacter_eq_some_iff {expected : Char} {text rest : List Char} :
    readCharacter expected text = some ((), rest) ↔ text = expected :: rest := by
  cases text with
  | nil => exact iff_of_false nofun nofun
  | cons character text =>
    simp only [readCharacter]
    split
    · rename_i same
      simp [same]
    · rename_i different
      exact iff_of_false nofun fun same => different (List.cons.inj same).1

/-! ### Blanks around a text -/

/-- The text has nothing but blanks. -/
def IsPadding (text : List Char) : Prop :=
  ∀ character ∈ text, isBlank character = true

instance (text : List Char) : Decidable (IsPadding text) :=
  decidable_of_iff (text.all isBlank = true) List.all_eq_true

/-- The text neither starts nor ends with a blank. -/
structure IsTight (text : List Char) : Prop where
  starts : EndsRun isBlank text
  ends : EndsRun isBlank text.reverse

theorem IsPadding.append {front back : List Char} (left : IsPadding front)
    (right : IsPadding back) : IsPadding (front ++ back) :=
  fun _ member => (List.mem_append.mp member).elim (left _) (right _)

/-- A text without blanks is tight. -/
theorem isTight_of_forall {text : List Char}
    (free : ∀ character ∈ text, isBlank character = false) : IsTight text where
  starts _ first := free _ (List.mem_of_mem_head? first)
  ends _ last := free _ (List.mem_reverse.mp (List.mem_of_mem_head? last))

theorem trimStart_append {before text : List Char} (padding : IsPadding before)
    (starts : EndsRun isBlank text) : trimStart (before ++ text) = text := by
  unfold trimStart
  rw [List.dropWhile_append_of_pos padding, starts.dropWhile_eq]

theorem trimEnd_append {text after : List Char} (padding : IsPadding after)
    (ends : EndsRun isBlank text.reverse) : trimEnd (text ++ after) = text := by
  have reversed : IsPadding after.reverse := fun _ member => padding _ (List.mem_reverse.mp member)
  unfold trimEnd
  rw [List.reverse_append, List.dropWhile_append_of_pos reversed, ends.dropWhile_eq,
    List.reverse_reverse]

/-- Trimming leaves a text with blanks around it if it has something that is not blank at
either end. -/
theorem trim_append {before text after : List Char} (left : IsPadding before)
    (right : IsPadding after) (nonempty : text ≠ []) (tight : IsTight text) :
    trim (before ++ text ++ after) = text := by
  have starts : EndsRun isBlank (text ++ after) := by
    cases text with
    | nil => exact absurd rfl nonempty
    | cons character text => exact endsRun_cons.mpr (endsRun_cons.mp tight.starts)
  unfold trim
  rw [List.append_assoc, trimStart_append left starts, trimEnd_append right tight.ends]

/-- Trimming loses blanks at both ends and nothing else. -/
theorem exists_append_trim (text : List Char) :
    ∃ before after, IsPadding before ∧ IsPadding after ∧ text = before ++ trim text ++ after := by
  refine ⟨text.takeWhile isBlank, ((trimStart text).reverse.takeWhile isBlank).reverse,
    fun _ member => List.mem_takeWhile_imp member,
    fun _ member => List.mem_takeWhile_imp (List.mem_reverse.mp member), ?_⟩
  have back : trimStart text =
      trim text ++ ((trimStart text).reverse.takeWhile isBlank).reverse := by
    unfold trim trimEnd
    rw [← List.reverse_append, List.takeWhile_append_dropWhile, List.reverse_reverse]
  rw [List.append_assoc, ← back]
  exact text.takeWhile_append_dropWhile.symm

end VmFleet.Text
