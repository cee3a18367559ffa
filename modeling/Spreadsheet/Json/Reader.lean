import Spreadsheet.Json
import Spreadsheet.Number.Numeral

/-!
# Reading stored data

A stored text holds one piece of data with blanks around it. Beyond the usual notation the words
`NaN`, `Infinity` and `-Infinity` are numbers. A number without a point and an exponent is a whole
number, and one of too many digits is a fault of its own. Of several entries with one key the last
one counts. The first fault from the left is reported.
-/

namespace Spreadsheet

open Text

inductive JsonError where
  | malformed
  | badNumber (e : NumeralError)
  deriving DecidableEq, Repr

namespace Json

abbrev Reader (α : Type) := List Char → Except JsonError (α × List Char)

def isSeparatorBlank (c : Char) : Bool :=
  c = ' ' || c = '\t' || c = '\n' || c = '\r'

def skipBlanks (cs : List Char) : List Char :=
  cs.dropWhile isSeparatorBlank

/-! ## Texts -/

def hexValue? (c : Char) : Option Nat :=
  if isPlainDigit c then some (c.toNat - '0'.toNat)
  else if 'a' ≤ c && c ≤ 'f' then some (c.toNat - 'a'.toNat + 10)
  else if 'A' ≤ c && c ≤ 'F' then some (c.toNat - 'A'.toNat + 10)
  else none

def takeUnit? : List Char → Option (Nat × List Char)
  | a :: b :: c :: d :: cs => do
    let a ← hexValue? a
    let b ← hexValue? b
    let c ← hexValue? c
    let d ← hexValue? d
    return (((a * 16 + b) * 16 + c) * 16 + d, cs)
  | _ => none

def takeLowUnit? : List Char → Option (Nat × List Char)
  | '\\' :: 'u' :: cs =>
    match takeUnit? cs with
    | some (low, rest) => if 0xdc00 ≤ low ∧ low < 0xe000 then some (low, rest) else none
    | none => none
  | _ => none

/-- The character of one code unit or of a pair of them. A unit that lacks its partner becomes the
replacement character. -/
def takeEscapedChar? (cs : List Char) : Option (Char × List Char) := do
  let (unit, rest) ← takeUnit? cs
  if 0xd800 ≤ unit ∧ unit < 0xdc00 then
    match takeLowUnit? rest with
    | some (low, rest) =>
      return (Char.ofNat (0x10000 + (unit - 0xd800) * 0x400 + (low - 0xdc00)), rest)
    | none => return ('\ufffd', rest)
  else if 0xdc00 ≤ unit ∧ unit < 0xe000 then return ('\ufffd', rest)
  else return (Char.ofNat unit, rest)

def takeEscape? : List Char → Option (Char × List Char)
  | [] => none
  | c :: cs =>
    if c = '"' || c = '\\' || c = '/' then some (c, cs)
    else if c = 'b' then some ('\x08', cs)
    else if c = 'f' then some ('\x0c', cs)
    else if c = 'n' then some ('\n', cs)
    else if c = 'r' then some ('\r', cs)
    else if c = 't' then some ('\t', cs)
    else if c = 'u' then takeEscapedChar? cs
    else none

/-- The characters of a text behind its opening quote, and what follows its closing quote. The first
argument bounds their number. -/
def takeChars? : Nat → List Char → Option (List Char × List Char)
  | 0, _ => none
  | _, [] => none
  | n + 1, c :: cs =>
    if c = '"' then some ([], cs)
    else if c = '\\' then do
      let (d, rest) ← takeEscape? cs
      let (ds, rest) ← takeChars? n rest
      return (d :: ds, rest)
    else if c.toNat < 0x20 then none
    else do
      let (ds, rest) ← takeChars? n cs
      return (c :: ds, rest)

def readText : Reader String := fun cs =>
  match takeChars? cs.length cs with
  | some (ds, rest) => .ok (String.ofList ds, rest)
  | none => .error .malformed

/-! ## Numbers -/

/-- The digits of a whole number without needless zeros in front. -/
def takeWhole? : List Char → Option (List Char × List Char)
  | [] => none
  | c :: cs =>
    if c = '0' then some ([c], cs)
    else if isPlainDigit c then
      some (c :: cs.takeWhile isPlainDigit, cs.dropWhile isPlainDigit)
    else none

def takeFraction? : List Char → Option (List Char × List Char)
  | '.' :: cs =>
    if (cs.takeWhile isPlainDigit).isEmpty then none
    else some (cs.takeWhile isPlainDigit, cs.dropWhile isPlainDigit)
  | _ => none

def takeExponent? : List Char → Option (Int × List Char)
  | [] => none
  | c :: cs =>
    if c = 'e' || c = 'E' then
      let (negative, rest) := splitSign cs
      let digits := rest.takeWhile isPlainDigit
      if digits.isEmpty then none
      else
        some (if negative then -(decimalValue digits : Int) else decimalValue digits,
          rest.dropWhile isPlainDigit)
    else none

def readNumber : Reader Number := fun cs =>
  let (negative, body) :=
    match cs with
    | '-' :: body => (true, body)
    | body => (false, body)
  match takeWhole? body with
  | none => .error .malformed
  | some (whole, rest) =>
    let fraction? := takeFraction? rest
    let (fraction, rest) := fraction?.getD ([], rest)
    let exponent? := takeExponent? rest
    let (exponent, rest) := exponent?.getD (0, rest)
    if fraction?.isNone && exponent?.isNone then
      if maxDigits < whole.length then .error (.badNumber (.tooManyDigits whole.length))
      else
        .ok (.integer (if negative then -(decimalValue whole : Int) else decimalValue whole), rest)
    else
      let d : Decimal :=
        ⟨negative, decimalValue (whole ++ fraction), exponent - fraction.length⟩
      .ok (.double d.toDouble, rest)

/-! ## Lists, tables and everything -/

def words : List (List Char × Json) :=
  [("null".toList, .null), ("true".toList, .bool true), ("false".toList, .bool false),
   ("NaN".toList, .number .nan), ("Infinity".toList, .number (.double (.infinity false))),
   ("-Infinity".toList, .number (.double (.infinity true)))]

/-- Reads the items of a list that is not empty, and its closing bracket. The first argument bounds
their number. -/
def readItems (value : Reader Json) : Nat → Reader (List Json)
  | 0, _ => .error .malformed
  | n + 1, cs => do
    let (item, rest) ← value (skipBlanks cs)
    match skipBlanks rest with
    | ']' :: rest => return ([item], rest)
    | ',' :: rest =>
      let (others, rest) ← readItems value n rest
      return (item :: others, rest)
    | _ => throw .malformed

/-- Reads the entries of a table that is not empty, and its closing brace. The second argument holds
the entries so far, and the first one bounds the number of those to come. -/
def readEntries (value : Reader Json) : Nat → List (String × Json) → Reader (List (String × Json))
  | 0, _, _ => .error .malformed
  | n + 1, before, cs =>
    match skipBlanks cs with
    | '"' :: rest => do
      let (key, rest) ← readText rest
      match skipBlanks rest with
      | ':' :: rest =>
        let (v, rest) ← value (skipBlanks rest)
        let sofar := insertEntry key v before
        match skipBlanks rest with
        | '\x7d' :: rest => return (sofar, rest)
        | ',' :: rest => readEntries value n sofar rest
        | _ => throw .malformed
      | _ => throw .malformed
    | _ => .error .malformed

def readValueOver (inner : Reader Json) : Reader Json
  | '"' :: rest => (readText rest).map fun (s, rest) => (.text s, rest)
  | '[' :: rest =>
    match skipBlanks rest with
    | ']' :: rest => .ok (.list [], rest)
    | _ => (readItems inner rest.length rest).map fun (found, rest) => (.list found, rest)
  | '\x7b' :: rest =>
    match skipBlanks rest with
    | '\x7d' :: rest => .ok (.table [], rest)
    | _ => (readEntries inner rest.length [] rest).map fun (found, rest) => (.table found, rest)
  | cs =>
    match words.find? fun w => w.1.isPrefixOf cs with
    | some (word, value) => .ok (value, cs.drop word.length)
    | none => (readNumber cs).map fun (n, rest) => (.number n, rest)

def readValue : Nat → Reader Json
  | 0 => fun _ => .error .malformed
  | levels + 1 => readValueOver (readValue levels)

def read (s : String) : Except JsonError Json :=
  let cs := s.toList
  match readValue (cs.length + 1) (skipBlanks cs) with
  | .error e => .error e
  | .ok (data, rest) => if (skipBlanks rest).isEmpty then .ok data else .error .malformed

end Json

end Spreadsheet
