import Spreadsheet.Json
import Spreadsheet.Text.Shown

/-!
# Data as stored text

Lists stand in brackets and tables in braces, with a comma and a space between two items and a colon
and a space behind a key. Texts are written with the characters of the basic range alone: every other
character is written by its code units of 16 bits.
-/

namespace Spreadsheet

namespace Json

open Text

def escapedUnit (n : Nat) : List Char :=
  '\\' :: 'u' :: hexadecimal 4 n

def escaped (c : Char) : List Char :=
  if c = '"' || c = '\\' then ['\\', c]
  else if c = '\n' then ['\\', 'n']
  else if c = '\r' then ['\\', 'r']
  else if c = '\t' then ['\\', 't']
  else if c = '\x0c' then ['\\', 'f']
  else if c = '\x08' then ['\\', 'b']
  else if 0x20 ≤ c.toNat && c.toNat < 0x7f then [c]
  else if c.toNat < 0x10000 then escapedUnit c.toNat
  else
    escapedUnit (0xd800 + (c.toNat - 0x10000) / 0x400) ++
      escapedUnit (0xdc00 + (c.toNat - 0x10000) % 0x400)

def writeText (s : String) : List Char :=
  '"' :: s.toList.flatMap escaped ++ ['"']

def writeBool (value : Bool) : List Char :=
  if value then ['t', 'r', 'u', 'e'] else ['f', 'a', 'l', 's', 'e']

def separated : List (List Char) → List Char
  | [] => []
  | [part] => part
  | part :: parts => part ++ ',' :: ' ' :: separated parts

def writeList (parts : List (List Char)) : List Char :=
  '[' :: separated parts ++ [']']

def writeEntry (key : String) (value : List Char) : List Char :=
  writeText key ++ ':' :: ' ' :: value

def writeTable (entries : List (List Char)) : List Char :=
  '\x7b' :: separated entries ++ ['\x7d']

def writeNumber? (n : Number) : Option (List Char) :=
  n.stored?.map String.toList

mutual

def write? : Json → Option (List Char)
  | .null => some ['n', 'u', 'l', 'l']
  | .bool value => some (writeBool value)
  | .number n => writeNumber? n
  | .text s => some (writeText s)
  | .list items => (writeItems? items).map writeList
  | .table entries => (writeEntries? entries).map writeTable

def writeItems? : List Json → Option (List (List Char))
  | [] => some []
  | item :: items => do
    let part ← write? item
    let parts ← writeItems? items
    return part :: parts

def writeEntries? : List (String × Json) → Option (List (List Char))
  | [] => some []
  | (key, value) :: entries => do
    let part ← write? value
    let parts ← writeEntries? entries
    return writeEntry key part :: parts

end

end Json

end Spreadsheet
