import Spreadsheet.Number
import Spreadsheet.Number.Shortest

/-!
# Numbers as text

Three spellings share the digits. `Number.display` is what a cell shows, `Number.shown` is what a
message says, and `Number.stored` is what a stored formula holds. A whole number of more than 4300
digits has no text.
-/

namespace Spreadsheet

def maxDigits : Nat := 4300

def integerText? (n : Int) : Option String :=
  let digits := Nat.toDigits 10 n.natAbs
  if maxDigits < digits.length then none
  else some (String.ofList (if n < 0 then '-' :: digits else digits))

namespace Decimal

def positional (digits : List Char) (exponent : Int) : List Char :=
  let point := digits.length + exponent
  if 0 ≤ exponent then digits ++ List.replicate exponent.toNat '0' ++ ['.', '0']
  else if 0 < point then digits.take point.toNat ++ '.' :: digits.drop point.toNat
  else '0' :: '.' :: List.replicate (-point).toNat '0' ++ digits

def leadingPoint (digits : List Char) : List Char :=
  match digits with
  | [] => []
  | [d] => [d]
  | d :: ds => d :: '.' :: ds

def scientific (digits : List Char) (exponent : Int) : List Char :=
  let power := Nat.toDigits 10 exponent.natAbs
  leadingPoint digits ++ 'e' :: (if exponent < 0 then '-' else '+') ::
    (List.replicate (2 - power.length) '0' ++ power)

/-- The text of a decimal: with a point if the leading digit stands from the fourth place after the
point to the sixteenth before it, else with an exponent. -/
def text (d : Decimal) : String :=
  let digits := Nat.toDigits 10 d.coefficient
  let leading := digits.length + d.exponent - 1
  let spelled :=
    if -4 ≤ leading ∧ leading < 16 then positional digits d.exponent else scientific digits leading
  String.ofList (if d.negative then '-' :: spelled else spelled)

end Decimal

namespace Double

structure Names where
  nan : String
  infinity : String

def textWith (names : Names) : Double → String
  | .nan => names.nan
  | .infinity s => if s then "-" ++ names.infinity else names.infinity
  | .finite s m => (shortest s m).text

end Double

namespace Number

def longNames : Double.Names := ⟨"NaN", "Infinity"⟩

def shortNames : Double.Names := ⟨"nan", "inf"⟩

def textWith? (names : Double.Names) : Number → Option String
  | .integer n => integerText? n
  | .double x => some (x.textWith names)

def stored? (n : Number) : Option String :=
  n.textWith? longNames

def shown? (n : Number) : Option String :=
  n.textWith? shortNames

def display? : Number → Option String
  | .integer n => integerText? n
  | .double x =>
    match x.toInt? with
    | some n => integerText? n
    | none => some (x.textWith longNames)

end Number

end Spreadsheet
