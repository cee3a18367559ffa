import Spreadsheet.Number.Decimal

/-!
# The shortest decimal that reads back

A double is written with the fewest significant digits that still read back as the same double. Of
several decimals with that many digits it is the nearest to the double, and of two equally near ones
that with the even last digit.

Seventeen digits always suffice. Should none of the shorter decimals read back, the exact value is
written, so what is written reads back in any case.
-/

namespace Spreadsheet

namespace Double

def leadingPlace (num den : Nat) : Int :=
  if den ≤ num then (decimalLength (num / den) : Int) - 1
  else -(decimalLength ((den - 1) / num) : Int)

def inSteps (num den : Nat) (place : Int) : Nat × Nat :=
  if 0 ≤ place then (num, den * tenPow place.toNat) else (num * tenPow (-place).toNat, den)

/-- The two neighbours of `a / b` among the whole numbers, the nearer one first, and of two
equally near ones the even one. A whole number has only itself. -/
def neighbours (a b : Nat) : List Nat :=
  let low := a / b
  let rest := a % b
  if rest = 0 then [low]
  else if 2 * rest < b ∨ (2 * rest = b ∧ low % 2 = 0) then [low, low + 1]
  else [low + 1, low]

def withoutTrailingZeros : Nat → Decimal → Decimal
  | 0, d => d
  | steps + 1, d =>
    if d.coefficient ≠ 0 ∧ d.coefficient % 10 = 0 then
      withoutTrailingZeros steps ⟨d.negative, d.coefficient / 10, d.exponent + 1⟩
    else d

def exactDecimal (negative : Bool) (m : Magnitude) : Decimal :=
  ⟨negative, m.units * Nat.pow 5 1074, -1074⟩

def candidates (negative : Bool) (m : Magnitude) (digits : Nat) : List Decimal :=
  let place := leadingPlace m.units Magnitude.unitsPerOne - (digits : Int) + 1
  let steps := inSteps m.units Magnitude.unitsPerOne place
  (neighbours steps.1 steps.2).map fun n => ⟨negative, n, place⟩

/-- The shortest decimal that reads back as the double with this sign and magnitude, without
trailing zeros in its coefficient. -/
def shortest (negative : Bool) (m : Magnitude) : Decimal :=
  if m.units = 0 then ⟨negative, 0, 0⟩
  else
    let all := (List.range 17).flatMap fun n => candidates negative m (n + 1)
    let found := all.find? fun d => d.toDouble = .finite negative m
    match found with
    | some d => withoutTrailingZeros 17 d
    | none => exactDecimal negative m

end Double

end Spreadsheet
