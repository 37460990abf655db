/-
This file holds the blank characters and the trimming of text. A character is
blank when it has the Unicode property White_Space. The set is a fixed table of
ten ranges, so it is written out here: the class of core covers ASCII only, and
a runner may surround its report with any of these.
-/

namespace VmFleet.Text

/-- The code points with the property White_Space, as closed ranges. -/
def blankRanges : List (Nat × Nat) :=
  [(0x09, 0x0D), (0x20, 0x20), (0x85, 0x85), (0xA0, 0xA0), (0x1680, 0x1680), (0x2000, 0x200A),
    (0x2028, 0x2029), (0x202F, 0x202F), (0x205F, 0x205F), (0x3000, 0x3000)]

/-- A character is blank when its code point lies in one of the ranges. -/
def isBlank (character : Char) : Bool :=
  blankRanges.any fun range => range.1 ≤ character.toNat && character.toNat ≤ range.2

/-- The text without the blanks at its start. -/
def trimStart (text : List Char) : List Char :=
  text.dropWhile isBlank

/-- The text without the blanks at its end. -/
def trimEnd (text : List Char) : List Char :=
  (text.reverse.dropWhile isBlank).reverse

/-- The text without the blanks at either end. -/
def trim (text : List Char) : List Char :=
  trimEnd (trimStart text)

/-- What follows the given opening, when the text has it. -/
def afterOpening? : List Char → List Char → Option (List Char)
  | [], text => some text
  | expected :: opening, character :: text =>
    if expected = character then afterOpening? opening text else none
  | _ :: _, [] => none

/-- An opening is found before any continuation. -/
theorem afterOpening?_append (opening text : List Char) :
    afterOpening? opening (opening ++ text) = some text := by
  induction opening with
  | nil => rfl
  | cons character opening inductionHypothesis => simp [afterOpening?, inductionHypothesis]

/-- An opening that is found was there. -/
theorem eq_append_of_afterOpening? {opening text rest : List Char}
    (found : afterOpening? opening text = some rest) : text = opening ++ rest := by
  induction opening generalizing text with
  | nil =>
    simp only [afterOpening?, Option.some.injEq] at found
    exact found
  | cons expected opening inductionHypothesis =>
    cases text with
    | nil => simp [afterOpening?] at found
    | cons character text =>
      simp only [afterOpening?] at found
      split at found
      · next same => rw [same, inductionHypothesis found, List.cons_append]
      · simp at found

end VmFleet.Text
