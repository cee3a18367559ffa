import Spreadsheet.Number.Double

/-!
# Decimal numbers and the double nearest to them

A decimal is a sign, a coefficient and an exponent of ten. Reading a decimal as a double rounds once,
to the nearest double.
-/

namespace Spreadsheet

def decimalLength (n : Nat) : Nat :=
  (Nat.toDigits 10 n).length

structure Decimal where
  negative : Bool
  coefficient : Nat
  exponent : Int
  deriving DecidableEq, Repr

namespace Decimal

/-- The double nearest to a decimal, infinite beyond the finite doubles. A number of at least
`10 ^ 310` is beyond them and one below `10 ^ (-330)` is nearest to zero, so the power of ten is
worked out only for exponents between these bounds. -/
def toDouble (d : Decimal) : Double :=
  let top := decimalLength d.coefficient + d.exponent
  if d.coefficient = 0 ∨ top < -330 then Double.zero d.negative
  else if 310 < top then .infinity d.negative
  else if 0 ≤ d.exponent then
    Double.round d.negative (d.coefficient * tenPow d.exponent.toNat * Magnitude.unitsPerOne) 1
  else
    Double.round d.negative (d.coefficient * Magnitude.unitsPerOne) (tenPow (-d.exponent).toNat)

end Decimal

end Spreadsheet
