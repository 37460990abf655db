/-
This file gives unquoted values their meaning: truth values, whole numbers in
four bases, floating-point numbers, and dates and times. Underscores may stand
between two digits and count for nothing. A decimal number has no leading zeros,
and only decimal numbers have a sign. A whole number has to fit 64 bits with a
sign. What starts with digits before a hyphen or a colon is a date or a time.
-/

import VmFleet.Text.Hex
import VmFleet.Text.Split
import VmFleet.Toml.Value

namespace VmFleet.Toml

open VmFleet.Text

/-! ### Digits -/

/-- Digits whose underscores all stand between two digits, without them. -/
def ungroup? (belongs : Char → Bool) (text : List Char) : Option (List Char) :=
  let groups := splitOn '_' text
  if groups.all fun group => !group.isEmpty && group.all belongs then some groups.flatten else none

/-- The digits of a decimal number without leading zeros. -/
def unpadded? (text : List Char) : Option (List Char) := do
  let digits ← ungroup? isDigit text
  if digits.length > 1 ∧ digits.head? = some '0' then none else some digits

/-- The number that digits spell in a base of up to sixteen. -/
def valueIn (base : Nat) (digits : List Char) : Nat :=
  digits.foldl (fun total digit => base * total + (hexValue? digit).getD 0) 0

/-- Whether a character is a digit in a base of up to sixteen. -/
def isDigitIn (base : Nat) (character : Char) : Bool :=
  (hexValue? character).any (· < base)

/-- A sign and what it stands before. -/
def takeSign : List Char → Bool × List Char
  | '-' :: text => (true, text)
  | '+' :: text => (false, text)
  | text => (false, text)

/-! ### Whole numbers -/

/-- The base that an opening names, with the digits after it. -/
def based? : List Char → Option (Nat × List Char)
  | '0' :: 'x' :: digits => some (16, digits)
  | '0' :: 'o' :: digits => some (8, digits)
  | '0' :: 'b' :: digits => some (2, digits)
  | _ => none

/-- Whether a number fits 64 bits with a sign. -/
def fitsSigned (number : Int) : Bool :=
  -Int.ofNat signedLimit ≤ number && number < Int.ofNat signedLimit

/-- The whole number that a text spells. -/
def integer? (text : List Char) : Option Int := do
  let number ← match based? text with
    | some (base, digits) =>
      (ungroup? (isDigitIn base) digits).map fun digits => (valueIn base digits : Int)
    | none =>
      let (negative, digits) := takeSign text
      (unpadded? digits).map fun digits =>
        let value : Int := valueIn 10 digits
        if negative then -value else value
  if fitsSigned number then some number else none

/-! ### Floating-point numbers -/

/-- The decimal that a text spells with a point, an exponent or both. -/
def decimalOf? (text : List Char) : Option Decimal := do
  let (negative, unsigned) := takeSign text
  let (front, exponent) := cutAt 'e' (unsigned.map fun c => if c = 'E' then 'e' else c)
  let (whole, fraction) := cutAt '.' front
  let whole ← unpadded? whole
  let fraction ← match fraction with
    | some digits => ungroup? isDigit digits
    | none => some []
  let shift ← match exponent with
    | some written =>
      let (below, digits) := takeSign written
      (ungroup? isDigit digits).map fun digits =>
        let value : Int := valueIn 10 digits
        if below then -value else value
    | none => some 0
  if fraction.isEmpty ∧ exponent.isNone then none
  else some ⟨negative, valueIn 10 (whole ++ fraction), shift - fraction.length⟩

/-- The floating-point number that a text spells. -/
def float? (text : List Char) : Option Binary64 :=
  let (negative, unsigned) := takeSign text
  if unsigned = "inf".toList then some (.infinite negative)
  else if unsigned = "nan".toList then some .undefined
  else (decimalOf? text).map Binary64.ofDecimal

/-! ### Any form -/

/-- Whether a text is a date or a time: digits before a hyphen or a colon. -/
def isMoment (text : List Char) : Bool :=
  let unsigned := (takeSign text).2
  let digits := unsigned.takeWhile isDigit
  let next := (unsigned.drop digits.length).head?
  !digits.isEmpty && (next == some '-' || next == some ':')

/-- The value that an unquoted text spells. -/
def scalar? (text : List Char) : Option Value :=
  if text = "true".toList then some (.boolean true)
  else if text = "false".toList then some (.boolean false)
  else if isMoment text then some (.moment (String.ofList text))
  else ((integer? text).map Value.integer).or ((float? text).map Value.float)

end VmFleet.Toml
