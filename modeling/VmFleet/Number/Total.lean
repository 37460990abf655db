/-
This file adds numbers up. The total of a row is taken one number at a time from
the front, so what a total says about the first number and about the rest is the
definition itself.
-/

namespace VmFleet

/-- The total of a row of numbers. -/
def total : List Nat → Nat
  | [] => 0
  | number :: numbers => number + total numbers

@[simp]
theorem total_nil : total [] = 0 := rfl

@[simp]
theorem total_cons (number : Nat) (numbers : List Nat) :
    total (number :: numbers) = number + total numbers := rfl

end VmFleet
