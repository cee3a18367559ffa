import Spreadsheet.Number.Numeral

/-!
# Exact decimals

An exact decimal keeps the digits it was given, so `1.50` and `1.5` are two of them. Besides the finite
ones there are the infinities and the values that are no number. Those may carry a mark of digits, and a
signaling one refuses to become a double.
-/

namespace Spreadsheet

open Text

inductive ExactDecimal where
  | finite (d : Decimal)
  | infinite (negative : Bool)
  /-- No number. The mark 0 stands for no mark. -/
  | nan (negative signaling : Bool) (mark : Nat)
  deriving DecidableEq, Repr

def maxFirstExponent : Int := 999999999999999999

def minLastExponent : Int := -1999999999999999997

namespace Decimal

def isWithinBounds (d : Decimal) : Bool :=
  minLastExponent ≤ d.exponent && decimalLength d.coefficient + d.exponent - 1 ≤ maxFirstExponent

/-- All digits, with a point before the last ones of them, or with one digit before the point and an
exponent if digits are unknown at the end or more than five zeros would follow the point. -/
def exactText (d : Decimal) : List Char :=
  let digits := Nat.toDigits 10 d.coefficient
  let point := digits.length + d.exponent
  let spelled :=
    if d.exponent = 0 then digits
    else if d.exponent < 0 ∧ 0 < point then
      digits.take point.toNat ++ '.' :: digits.drop point.toNat
    else if d.exponent < 0 ∧ -6 < point then
      '0' :: '.' :: List.replicate (-point).toNat '0' ++ digits
    else
      leadingPoint digits ++ 'E' :: (if point - 1 < 0 then '-' else '+') ::
        Nat.toDigits 10 (point - 1).natAbs
  if d.negative then '-' :: spelled else spelled

end Decimal

namespace ExactDecimal

def marked? (negative signaling : Bool) (mark : List Char) : Option ExactDecimal :=
  if mark.all isDecimal then some (.nan negative signaling (decimalValue mark)) else none

def ofWord? (negative : Bool) (word : List Char) : Option ExactDecimal :=
  match word with
  | 'n' :: 'a' :: 'n' :: mark => marked? negative false mark
  | 's' :: 'n' :: 'a' :: 'n' :: mark => marked? negative true mark
  | word =>
    if word = "inf".toList ∨ word = "infinity".toList then some (.infinite negative) else none

/-- Reads an exact decimal. Underscores count for nothing, and words may be in letters of either
size. -/
def ofText? (text : String) : Option ExactDecimal :=
  let cs := (trim text.toList).filter fun c => c ≠ '_'
  match Decimal.ofSpelling? cs with
  | some d => if d.isWithinBounds then some (.finite d) else none
  | none =>
    let (negative, word) := splitSign cs
    ofWord? negative (word.map Char.toLower)

def toDouble? : ExactDecimal → Option Double
  | .finite d => some d.toDouble
  | .infinite negative => some (.infinity negative)
  | .nan _ signaling _ => if signaling then none else some .nan

/-- Only a signaling value becomes no double. -/
theorem toDouble?_eq_none_iff (x : ExactDecimal) :
    x.toDouble? = none ↔ ∃ negative mark, x = .nan negative true mark := by
  cases x with
  | finite d => simp [toDouble?]
  | infinite negative => simp [toDouble?]
  | nan negative signaling mark => cases signaling <;> simp [toDouble?]

def text (x : ExactDecimal) : String :=
  match x with
  | .finite d => String.ofList d.exactText
  | .infinite negative => if negative then "-Infinity" else "Infinity"
  | .nan negative signaling mark =>
    (if negative then "-" else "") ++ (if signaling then "sNaN" else "NaN") ++
      if mark = 0 then "" else String.ofList (Nat.toDigits 10 mark)

def shown (x : ExactDecimal) : String :=
  "Decimal('" ++ x.text ++ "')"

end ExactDecimal

end Spreadsheet
