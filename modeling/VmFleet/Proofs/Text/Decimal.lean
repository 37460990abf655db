/-
This file proves that a number has one text without padding. The last digit of a text is the
number modulo ten and what stands before it is the number divided by ten, so a text is what
the number is written as, digit by digit from its end; padding is the only other way. In the
same way what a number is written as is read as the number, if that is below the bound.
-/

import Mathlib.Data.List.Induction
import VmFleet.Text.Decimal

namespace VmFleet.Text

/-- The value of a digit, and the digit of a value. -/
theorem digit?_eq_some {character : Char} {value : Nat} (digit : digit? character = some value) :
    value < 10 ∧ value.digitChar = character := by
  unfold digit? at digit
  split at digit
  · rename_i inside
    obtain rfl := Option.some.inj digit
    obtain ⟨low, high⟩ := inside
    have low : 48 ≤ character.toNat := low
    have high : character.toNat ≤ 57 := high
    have zero : '0'.toNat = 48 := rfl
    have written : ∀ value < 10, Nat.digitChar value = Char.ofNat (48 + value) := by decide
    have small : character.toNat - '0'.toNat < 10 := by omega
    refine ⟨small, ?_⟩
    rw [written _ small, zero, Nat.add_sub_cancel' low, Char.ofNat_toNat]
  · cases digit

theorem decimalFrom?_append (total : Nat) (text : List Char) (last : Char) :
    decimalFrom? total (text ++ [last]) =
      (decimalFrom? total text).bind fun value => (digit? last).map (10 * value + ·) := by
  induction text generalizing total with
  | nil =>
    simp only [List.nil_append, decimalFrom?, Option.bind_some]
    cases digit? last <;> rfl
  | cons character text inductionHypothesis =>
    simp only [List.cons_append, decimalFrom?]
    cases digit? character with
    | none => rfl
    | some value => exact inductionHypothesis _

theorem le_of_decimalFrom? {total value : Nat} {text : List Char}
    (read : decimalFrom? total text = some value) : total ≤ value := by
  induction text generalizing total with
  | nil => exact Nat.le_of_eq (Option.some.inj read)
  | cons character text inductionHypothesis =>
    obtain ⟨digit, -, rest⟩ := Option.bind_eq_some_iff.mp read
    have more := inductionHypothesis rest
    omega

/-- A number that is read from a text without padding is written as that text. -/
theorem toDigits_of_decimalFrom? {text : List Char} {value : Nat} (nonempty : text ≠ [])
    (unpadded : text.length > 1 → text.head? ≠ some '0')
    (read : decimalFrom? 0 text = some value) : Nat.toDigits 10 value = text := by
  induction text using List.reverseRecOn generalizing value with
  | nil => exact absurd rfl nonempty
  | append_singleton text last inductionHypothesis =>
    rw [decimalFrom?_append] at read
    obtain ⟨front, before, read⟩ := Option.bind_eq_some_iff.mp read
    obtain ⟨digit, single, rfl⟩ := Option.map_eq_some_iff.mp read
    obtain ⟨small, written⟩ := digit?_eq_some single
    cases text with
    | nil =>
      obtain rfl := Option.some.inj before
      rw [Nat.mul_zero, Nat.zero_add, Nat.toDigits_of_lt_base small, written]
      rfl
    | cons first text =>
      have front' := inductionHypothesis nofun (fun _ => by simpa using unpadded (by simp)) before
      -- the first digit is not zero, so neither is what stands before the last one
      have positive : 0 < front := by
        obtain ⟨leading, starts, rest⟩ := Option.bind_eq_some_iff.mp before
        obtain ⟨-, written⟩ := digit?_eq_some starts
        have nonzero : leading ≠ 0 := by
          rintro rfl
          exact unpadded (by simp) (by rw [← written]; rfl)
        have more := le_of_decimalFrom? rest
        omega
      rw [← Nat.toDigits_append_toDigits (by decide) positive small, front',
        Nat.toDigits_of_lt_base small, written]

theorem isDigit_of_decimalFrom? {total value : Nat} {text : List Char}
    (read : decimalFrom? total text = some value) : text.all isDigit = true := by
  induction text generalizing total with
  | nil => rfl
  | cons character text inductionHypothesis =>
    obtain ⟨digit, single, rest⟩ := Option.bind_eq_some_iff.mp read
    rw [List.all_cons, inductionHypothesis rest, isDigit, single]
    rfl

theorem toList_ofNat (value : Nat) : (ofNat value).toList = Nat.toDigits 10 value := by
  show (toString value).toList = _
  rw [Nat.toString_eq_ofList_toDigits, String.toList_ofList]

/-- A row of digits has no sign. -/
theorem unsigned?_of_digits {digits : List Char} (bound : Nat)
    (all : ∀ character ∈ digits, isDigit character = true) :
    unsigned? bound digits =
      (decimal? digits).bind fun value => if value < bound then some value else none := by
  unfold unsigned?
  split
  · cases all '+' (.head _)
  · rfl

/-! ### The text of a number is read -/

theorem digit?_digitChar {value : Nat} (small : value < 10) :
    digit? value.digitChar = some value := by
  have each : ∀ value < 10, digit? (Nat.digitChar value) = some value := by decide
  exact each value small

/-- The digits that a number is written with are read as the number. -/
theorem decimalFrom?_toDigits (value : Nat) :
    decimalFrom? 0 (Nat.toDigits 10 value) = some value := by
  induction value using Nat.strongRecOn with
  | ind value inductionHypothesis =>
    have last : value % 10 < 10 := Nat.mod_lt _ (by decide)
    by_cases single : value < 10
    · rw [Nat.toDigits_of_lt_base single]
      simp only [decimalFrom?, digit?_digitChar single, Option.bind_eq_bind, Option.bind_some,
        Nat.mul_zero, Nat.zero_add]
    · have written : Nat.toDigits 10 value =
          Nat.toDigits 10 (value / 10) ++ [(value % 10).digitChar] := by
        rw [← Nat.toDigits_of_lt_base last,
          Nat.toDigits_append_toDigits (by decide) (by omega) last, Nat.div_add_mod]
      rw [written, decimalFrom?_append, inductionHypothesis _ (by omega), digit?_digitChar last]
      simp only [Option.bind_some, Option.map_some, Nat.div_add_mod]

theorem isDigit_of_mem_toDigits (value : Nat) :
    ∀ character ∈ Nat.toDigits 10 value, isDigit character = true :=
  List.all_eq_true.mp (isDigit_of_decimalFrom? (decimalFrom?_toDigits value))

/-- A number below the bound is read from its text. -/
theorem unsigned?_ofNat {bound value : Nat} (small : value < bound) :
    unsigned? bound (ofNat value).toList = some value := by
  rw [toList_ofNat, unsigned?_of_digits bound (isDigit_of_mem_toDigits value), decimal?,
    if_neg (by simp), decimalFrom?_toDigits, Option.bind_some, if_pos small]

/-- The text of a number has no sign, so it is read as well where one is allowed. -/
theorem unsignedOfSigned?_ofNat {bound value : Nat} (small : value < bound) :
    unsignedOfSigned? bound (ofNat value).toList = some value := by
  have unsigned := unsigned?_ofNat small
  rw [toList_ofNat] at unsigned ⊢
  unfold unsignedOfSigned?
  split
  · rename_i signed
    cases isDigit_of_mem_toDigits value '-' (signed ▸ List.mem_cons_self)
  · exact unsigned

end VmFleet.Text
