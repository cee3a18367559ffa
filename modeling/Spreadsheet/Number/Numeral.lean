import Spreadsheet.Number
import Spreadsheet.Number.Printed
import Spreadsheet.Text.Digit
import Spreadsheet.Text.Shown
import Spreadsheet.Text.Space

/-!
# Reading numerals

`isNumeral` says which texts count as numbers in a formula. `Number.read` turns a text into a number
and is more liberal: white space may stand at the ends and single underscores between digits. A
text with a point or an exponent is a double, any other a whole number of at most 4300 digits.
Decimal digits of all scripts are read.
-/

namespace Spreadsheet

open Text

inductive NumeralError where
  | notInteger (text : String)
  | notDecimal (text : String)
  | tooManyDigits (count : Nat)
  deriving DecidableEq, Repr

namespace NumeralError

def limitMessage (detail : String) : String :=
  s!"Exceeds the limit ({maxDigits} digits) for integer string conversion{detail}; " ++
    "use sys.set_int_max_str_digits() to increase the limit"

def tooLongToWrite : String := limitMessage ""

def message : NumeralError → String
  | .notInteger text =>
    "invalid literal for int() with base 10: " ++ String.ofList ((shown text).toList.take 200)
  | .notDecimal text => "could not convert string to float: " ++ shown text
  | .tooManyDigits count => limitMessage s!": value has {count} digits"

end NumeralError

/-! ## The grammar of decimals -/

def splitSign : List Char → Bool × List Char
  | '-' :: cs => (true, cs)
  | '+' :: cs => (false, cs)
  | cs => (false, cs)

def splitFraction : List Char → List Char × List Char
  | '.' :: cs => (cs.takeWhile isDecimal, cs.dropWhile isDecimal)
  | cs => ([], cs)

def exponent? : List Char → Option Int
  | [] => some 0
  | c :: cs =>
    let (negative, digits) := splitSign cs
    if (c = 'e' || c = 'E') && !digits.isEmpty && digits.all isDecimal then
      some (if negative then -(decimalValue digits : Int) else decimalValue digits)
    else none

def Decimal.ofSpelling? (cs : List Char) : Option Decimal :=
  let (negative, body) := splitSign cs
  let whole := body.takeWhile isDecimal
  let (fraction, rest) := splitFraction (body.dropWhile isDecimal)
  if whole.isEmpty && fraction.isEmpty then none
  else (exponent? rest).map fun e =>
    ⟨negative, decimalValue (whole ++ fraction), e - fraction.length⟩

def dropFinalNewline (cs : List Char) : List Char :=
  if cs.getLast? = some '\n' then cs.dropLast else cs

/-- Whether a text counts as a number in a formula. One line break may follow the number. -/
def isNumeral (cs : List Char) : Bool :=
  (Decimal.ofSpelling? (dropFinalNewline cs)).isSome

/-! ## Reading -/

def isBlank (c : Char) : Bool :=
  c = ' ' || ('\t' ≤ c && c ≤ '\r')

/-- The plain spelling of one character of a number: a digit of another script becomes a plain
digit, white space beyond the basic range a blank, and any other foreign character a mark that
stands in no number. -/
def plainForm (c : Char) : Char :=
  if c.toNat < 127 then c
  else if isSpace c then ' '
  else
    match digitValue? c with
    | some d => Char.ofNat ('0'.toNat + d)
    | none => '?'

def plainSpelling (text : String) : List Char :=
  (((text.toList.map plainForm).dropWhile isBlank).reverse.dropWhile isBlank).reverse

/-- Drops underscores that stand between two digits. There is no result if any other underscore
occurs. `previous` is the character before the text. -/
def ungrouped? (previous : Char) : List Char → Option (List Char)
  | [] => if previous = '_' then none else some []
  | c :: cs =>
    if c = '_' then
      if isPlainDigit previous then ungrouped? c cs else none
    else if previous = '_' && !isPlainDigit c then none
    else (ungrouped? c cs).map (c :: ·)

/-- Reads a whole number. The number of digits is checked before what follows them. -/
def readInteger (text : String) : Except NumeralError Int :=
  let (negative, body) := splitSign (plainSpelling text)
  let run := body.takeWhile fun c => isPlainDigit c || c = '_'
  let rest := body.dropWhile fun c => isPlainDigit c || c = '_'
  match ungrouped? ' ' run with
  | none => .error (.notInteger text)
  | some digits =>
    if maxDigits < digits.length then .error (.tooManyDigits digits.length)
    else if digits.isEmpty || !rest.isEmpty then .error (.notInteger text)
    else .ok (if negative then -(decimalValue digits : Int) else decimalValue digits)

def readDouble (text : String) : Except NumeralError Double :=
  match (ungrouped? ' ' (plainSpelling text)).bind Decimal.ofSpelling? with
  | some d => .ok d.toDouble
  | none => .error (.notDecimal text)

/-- Reads a number: a double if the text has a point or an exponent, else a whole number. -/
def Number.read (text : String) : Except NumeralError Number :=
  if text.toList.any fun c => c = '.' || c = 'e' || c = 'E' then
    (readDouble text).map .double
  else (readInteger text).map .integer

end Spreadsheet
