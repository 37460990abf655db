/-
This file reads numbers written in decimal. A bound is part of reading: a number
that does not fit the word it is read for is refused, never cut. A sign is
allowed where the reader says so. Digits are ASCII digits; leading zeros count
for nothing unless a format forbids them.
-/

namespace VmFleet.Text

/-- The value of a decimal digit. -/
def digit? (character : Char) : Option Nat :=
  if '0' ≤ character ∧ character ≤ '9' then some (character.toNat - '0'.toNat) else none

/-- Whether the character is a decimal digit. -/
def isDigit (character : Char) : Bool :=
  (digit? character).isSome

/-- The number whose digits follow those already read. -/
def decimalFrom? (total : Nat) : List Char → Option Nat
  | [] => some total
  | character :: text => do
    let value ← digit? character
    decimalFrom? (10 * total + value) text

/-- The number a text spells, when it is one digit or more and nothing else. -/
def decimal? (text : List Char) : Option Nat :=
  if text.isEmpty then none else decimalFrom? 0 text

/-- The number below the bound that a text spells, with an optional plus sign. -/
def unsigned? (bound : Nat) (text : List Char) : Option Nat := do
  let value ← decimal? (match text with
    | '+' :: digits => digits
    | digits => digits)
  if value < bound then some value else none

/-- The number below the bound that a text spells, where a minus sign is
allowed too. Only zero has a negative spelling that is not below zero. -/
def unsignedOfSigned? (bound : Nat) (text : List Char) : Option Nat :=
  match text with
  | '-' :: digits => do
    let value ← decimal? digits
    if value = 0 then some 0 else none
  | _ => unsigned? bound text

/-- The number of values of a 64-bit word. -/
def word64 : Nat := Nat.pow 2 64

/-- The number of values of a 32-bit word. -/
def word32 : Nat := Nat.pow 2 32

/-- Half the number of values of a 64-bit word: numbers with a sign that fit one
lie from its negative up to below it. -/
def signedLimit : Nat := Nat.pow 2 63

/-- The decimal text of a number. -/
def ofNat (value : Nat) : String :=
  toString value

end VmFleet.Text
