/-
This file computes the whole numbers that scripts write as expressions. Products
bind tighter than sums, both associate to the left, and a name stands for the
number it was set to. Division cuts toward zero; dividing by zero gives nothing.
-/

import VmFleet.Shell.Word

namespace VmFleet.Shell

open VmFleet.Text

/-- A whole number in decimal; anything else counts as zero. -/
def wholeNumber (text : String) : Int :=
  match text.toList with
  | '-' :: digits => -Int.ofNat ((decimal? digits).getD 0)
  | digits => Int.ofNat ((decimal? digits).getD 0)

mutual

/-- A sum of products. -/
def readSum (value : String → Int) : Nat → Reader Int
  | 0, _ => none
  | steps + 1, text => do
    let (first, rest) ← readProduct value steps text
    readTerms value steps first rest

/-- The terms after the first one of a sum. -/
def readTerms (value : String → Int) : Nat → Int → Reader Int
  | 0, _, _ => none
  | steps + 1, total, text =>
    match text with
    | '+' :: text => do
      let (term, rest) ← readProduct value steps text
      readTerms value steps (total + term) rest
    | '-' :: text => do
      let (term, rest) ← readProduct value steps text
      readTerms value steps (total - term) rest
    | text => some (total, text)

/-- A product of numbers. -/
def readProduct (value : String → Int) : Nat → Reader Int
  | 0, _ => none
  | steps + 1, text => do
    let (first, rest) ← readNumber value steps text
    readFactors value steps first rest

/-- The factors after the first one of a product. -/
def readFactors (value : String → Int) : Nat → Int → Reader Int
  | 0, _, _ => none
  | steps + 1, total, text =>
    match text with
    | '*' :: text => do
      let (factor, rest) ← readNumber value steps text
      readFactors value steps (total * factor) rest
    | '/' :: text => do
      let (factor, rest) ← readNumber value steps text
      if factor = 0 then none else readFactors value steps (Int.tdiv total factor) rest
    | '%' :: text => do
      let (factor, rest) ← readNumber value steps text
      if factor = 0 then none else readFactors value steps (Int.tmod total factor) rest
    | text => some (total, text)

/-- A number, a name or an expression in parentheses. -/
def readNumber (value : String → Int) : Nat → Reader Int
  | 0, _ => none
  | steps + 1, text =>
    match text with
    | '(' :: text => do
      let (inner, rest) ← readSum value steps text
      let ((), rest) ← readCharacter ')' rest
      some (inner, rest)
    | '-' :: text => (readNumber value steps text).map fun (inner, rest) => (-inner, rest)
    | '$' :: text => readNumber value steps text
    | text =>
      let name := text.takeWhile isNameCharacter
      let spelled := String.ofList name
      if name.isEmpty then none
      else if name.all isDigit then some (wholeNumber spelled, text.drop name.length)
      else some (value spelled, text.drop name.length)

end

/-- The number that an expression stands for. -/
def compute? (value : String → Int) (expression : String) : Option Int :=
  let text := expression.toList.filter fun character => character != ' '
  match readSum value (5 * text.length + 5) text with
  | some (result, []) => some result
  | _ => none

end VmFleet.Shell
