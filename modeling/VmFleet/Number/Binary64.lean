/-
This file holds binary floating-point numbers of 64 bits as exact values: a sign
and a whole number times a power of two. A decimal is moved to the nearest such
number, to the even one of two that are equally near. The shortest text of a
number lies on the coarsest decimal grid of which a point rounds to it, and is
the nearest such point. Everything is computed in whole numbers.
-/

import VmFleet.Text.Decimal

namespace VmFleet

open VmFleet.Text

/-- A decimal: a sign and a whole number times a power of ten. -/
structure Decimal where
  negative : Bool
  digits : Nat
  exponent : Int
deriving DecidableEq, Repr

/-- A binary floating-point number. The significand of a finite one is below
2^53 and its exponent is not below -1074. -/
inductive Binary64
  | finite (negative : Bool) (significand : Nat) (exponent : Int)
  | infinite (negative : Bool)
  | undefined
deriving DecidableEq, Repr

namespace Binary64

/-- The smallest exponent. -/
def lowestExponent : Int := -1074

/-- The significand of a normal number lies from half of this to below it. -/
def significandLimit : Nat := Nat.pow 2 53

/-- The exponent from which on a significand is out of range. -/
def exponentLimit : Int := 972

/-! ### Rounding -/

/-- A quotient rounded to the nearest whole number, a tie to the even one. -/
def nearest (numerator denominator : Nat) : Nat :=
  let whole := numerator / denominator
  let twice := 2 * (numerator % denominator)
  if twice < denominator ∨ (twice = denominator ∧ whole % 2 = 0) then whole else whole + 1

/-- The exponent of the greatest power of two that is not above a quotient. -/
def binaryOrder (numerator denominator : Nat) : Int :=
  let guess : Int := (numerator.log2 : Int) - denominator.log2
  if numerator * Nat.pow 2 (-guess).toNat < denominator * Nat.pow 2 guess.toNat then guess - 1
  else guess

/-- The number nearest to a positive quotient. -/
def ofQuotient (negative : Bool) (numerator denominator : Nat) : Binary64 :=
  let exponent := max lowestExponent (binaryOrder numerator denominator - 52)
  let significand :=
    nearest (numerator * Nat.pow 2 (-exponent).toNat) (denominator * Nat.pow 2 exponent.toNat)
  let (significand, exponent) :=
    if significand = significandLimit then (significandLimit / 2, exponent + 1)
    else (significand, exponent)
  if exponentLimit ≤ exponent then .infinite negative
  else .finite negative significand exponent

/-- Every decimal with this order or a higher one is too large to be finite. -/
def overflowOrder : Int := 310

/-- Every decimal with this order or a lower one is nearest to zero. -/
def underflowOrder : Int := -330

/-- The number nearest to a decimal. -/
def ofDecimal (decimal : Decimal) : Binary64 :=
  let order : Int := decimal.exponent + (Nat.toDigits 10 decimal.digits).length
  if decimal.digits = 0 ∨ order ≤ underflowOrder then .finite decimal.negative 0 lowestExponent
  else if overflowOrder < order then .infinite decimal.negative
  else
    ofQuotient decimal.negative (decimal.digits * Nat.pow 10 decimal.exponent.toNat)
      (Nat.pow 10 (-decimal.exponent).toNat)

/-! ### Shortest text -/

/-- The values that round to a finite number, in quarters of its unit: the lower
end, the number itself and the upper end. -/
structure Span where
  low : Nat
  middle : Nat
  high : Nat
  /-- The ends belong to the span. -/
  closed : Bool

/-- The span of a significand. Below a power of two the neighbours are closer. -/
def spanOf (significand : Nat) (exponent : Int) : Span where
  low :=
    if significand = significandLimit / 2 ∧ lowestExponent < exponent then 4 * significand - 1
    else 4 * significand - 2
  middle := 4 * significand
  high := 4 * significand + 2
  closed := significand % 2 = 0

/-- A point of a decimal grid that lies in a span, the nearest one, and the upper
one of two that are equally near. Quarters are multiplied by the first factor and
points by the second to compare them. -/
def pointIn? (span : Span) (quarter point : Nat) : Option Nat :=
  let below := span.middle * quarter / point
  let holds := fun candidate =>
    if span.closed then
      span.low * quarter ≤ candidate * point && candidate * point ≤ span.high * quarter
    else span.low * quarter < candidate * point && candidate * point < span.high * quarter
  let nearerAbove := (below + 1) * point - span.middle * quarter ≤
    span.middle * quarter - below * point
  match decide (holds below), decide (holds (below + 1)) with
  | true, true => some (if nearerAbove then below + 1 else below)
  | true, false => some below
  | false, true => some (below + 1)
  | false, false => none

/-- The coarsest grid, going down from a power of ten, that has a point in the
span, with that point. -/
def coarsest (span : Span) (exponent : Int) : Nat → Int → Nat × Int
  | 0, power => (0, power)
  | steps + 1, power =>
    let quarter := Nat.pow 2 (exponent - 2).toNat * Nat.pow 10 (-power).toNat
    let point := Nat.pow 2 (2 - exponent).toNat * Nat.pow 10 power.toNat
    match pointIn? span quarter point with
    | some digits => (digits, power)
    | none => coarsest span exponent steps (power - 1)

/-- The power of ten of the coarsest grid that is tried. -/
def highestPower : Int := 309

/-- How many grids there are to try. -/
def gridCount : Nat := 640

/-- The shortest digits that round to a number, with their power of ten. -/
def shortest (significand : Nat) (exponent : Int) : Nat × Int :=
  coarsest (spanOf significand exponent) exponent gridCount highestPower

/-- Digits with a point where the power of ten puts it. -/
def positional (digits : Nat) (power : Int) : String :=
  let written := (ofNat digits).toList
  if 0 ≤ power then ofNat digits ++ String.ofList (List.replicate power.toNat '0')
  else
    let places := (-power).toNat
    let padded := List.replicate (places + 1 - written.length) '0' ++ written
    String.ofList (padded.take (padded.length - places)) ++ "." ++
      String.ofList (padded.drop (padded.length - places))

/-- The sign of a negative number. -/
def signText (negative : Bool) : String :=
  if negative then "-" else ""

/-- The text of a number: the shortest digits, never with an exponent. -/
def text : Binary64 → String
  | finite negative significand exponent =>
    if significand = 0 then signText negative ++ "0"
    else
      let (digits, power) := shortest significand exponent
      signText negative ++ positional digits power
  | infinite negative => signText negative ++ "inf"
  | undefined => "NaN"

end Binary64

end VmFleet
