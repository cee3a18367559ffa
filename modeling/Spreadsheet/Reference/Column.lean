import Spreadsheet.Number.Numeral
import Spreadsheet.Text.Capital
import Spreadsheet.Text.Letter

/-!
# Columns and their labels

Columns are labelled `A` to `Z`, `AA` to `ZZ` and `AAA` to `ZZZ`. The labels are the numerals of a
notation to the base 26 without a zero, counted from 1, while the index of a column counts from 0.
-/

namespace Spreadsheet

open Text

def columnCount : Nat := 18278

structure Column where
  index : Nat
  index_lt : index < columnCount
  deriving DecidableEq

inductive ColumnError where
  | noColumn (number : Int)
  | noLabel (text : String)
  deriving DecidableEq, Repr

namespace ColumnError

def message : ColumnError → String
  | .noColumn number =>
    match integerText? number with
    | some text => "Invalid column index " ++ text
    | none => NumeralError.tooLongToWrite
  | .noLabel text =>
    "'" ++ text ++ "' is not a valid column name. Column names are from A to ZZZ"

end ColumnError

namespace Column

def ofNat? (index : Nat) : Option Column :=
  if h : index < columnCount then some ⟨index, h⟩ else none

def ofInt? (index : Int) : Option Column :=
  if index < 0 then none else ofNat? index.toNat

def letter (n : Nat) : Char :=
  Char.ofNat ('A'.toNat + n)

def letters : (places : Nat) → (index : Nat) → List Char
  | 0, _ => []
  | places + 1, n =>
    if n < 26 then [letter n] else letters places (n / 26 - 1) ++ [letter (n % 26)]

def label (c : Column) : List Char :=
  letters 3 c.index

def numberOf (cs : List Char) : Nat :=
  cs.foldl (fun n c => 26 * n + (c.toNat - 'A'.toNat + 1)) 0

def ofCapitals? (cs : List Char) : Option Column :=
  if cs.isEmpty || !cs.all isCapital then none else ofNat? (numberOf cs - 1)

def lastThree (cs : List Char) : List Char :=
  cs.drop (cs.length - 3)

/-- The column of a label of at most three characters, in capital or small letters. Where capital
letters take more room than the label, the last three count. -/
def ofLabel? (cs : List Char) : Option Column :=
  if 3 < cs.length then none else ofCapitals? (lastThree (capitals cs))

/-- The label of the column with an index. An index below zero is reported as it is, one that is
too large as the number of the column counted from 1. -/
def labelAt (index : Int) : Except ColumnError String :=
  match ofInt? index with
  | some c => .ok (String.ofList c.label)
  | none => .error (.noColumn (if index < 0 then index else index + 1))

def indexOf (text : String) : Except ColumnError Nat :=
  match ofLabel? text.toList with
  | some c => .ok c.index
  | none => .error (.noLabel text)

end Column

end Spreadsheet
