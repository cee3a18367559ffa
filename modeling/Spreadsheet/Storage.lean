import Spreadsheet.Calendar.Iso
import Spreadsheet.Content
import Spreadsheet.Json.Reader
import Spreadsheet.Json.Writer

/-!
# Contents as text and back

`Content.display` gives the text that a cell shows. The text of a formula is its tree as stored data,
a table with the entries `name` and `args`. `Content.ofStored` reads a text back as a content of a
given kind. Empty text and text that does not fit the kind give a blank.
-/

namespace Spreadsheet

open Text

/-! ## Writing -/

inductive WriteError where
  | notStorable
  | unshown (e : Unshown)
  deriving DecidableEq, Repr

def writable {α : Type} : Option α → Except WriteError α
  | some a => .ok a
  | none => .error (.unshown .numberTooLong)

namespace WriteError

def message? : WriteError → Option String
  | .notStorable => none
  | .unshown e => e.message?

end WriteError

namespace Content

def storedTree (name : List Char) (args : List (List Char)) : List Char :=
  Json.writeTable [Json.writeEntry "name" name, Json.writeEntry "args" (Json.writeList args)]

mutual

/-- The stored text of an argument. Points in time, records and the host program's own forms have none,
but a text in parts without style is stored as their list. -/
def stored : Content → Except WriteError (List Char)
  | .blank => .ok ['n', 'u', 'l', 'l']
  | .bool value => .ok (Json.writeBool value)
  | .number n => writable (Json.writeNumber? n)
  | .text s => .ok (Json.writeText s)
  | .moment _ => .error .notStorable
  | .list items => writable (Json.write? (.list items))
  | .table entries => writable (Json.write? (.table entries))
  | .decimal _ => .error .notStorable
  | .arrayFormula _ => .error .notStorable
  | .richText parts =>
    if parts.any TextPart.styled then .error .notStorable
    else .ok (Json.writeList (parts.map fun part => Json.writeText part.text))
  | .record _ => .error .notStorable
  | .formula name args => do
    let name ← writable (Json.write? name)
    let args ← storedAll args
    return storedTree name args

def storedAll : List Content → Except WriteError (List (List Char))
  | [] => .ok []
  | arg :: args => do
    let part ← stored arg
    let parts ← storedAll args
    return part :: parts

end

def display : Content → Except WriteError String
  | .blank => .ok ""
  | .bool value => .ok (String.ofList (Json.writeBool value))
  | .number n => writable n.display?
  | .text s => .ok s
  | .moment m => .ok m.display
  | .formula name args => (stored (.formula name args)).map String.ofList
  | .decimal d => .ok d.text
  | .richText parts => .ok (TextPart.joined parts)
  | c => (c.shown maxFrames).mapError .unshown

end Content

/-! ## Reading -/

inductive StoredKind where
  | text
  | number
  | boolean
  | date
  | formula
  deriving DecidableEq, Repr

def StoredKind.ofName? (name : String) : Option StoredKind :=
  if name = "string" then some .text
  else if name = "number" then some .number
  else if name = "boolean" then some .boolean
  else if name = "date" then some .date
  else if name = "fx" then some .formula
  else none

inductive ReadError where
  | unknownKind (name : String)
  | badNumber (e : NumeralError)
  | durationTooLong
  | badData
  | notATree
  | unnamedTree
  deriving DecidableEq, Repr

namespace ReadError

/-- The text of an error. The four others are raised with the texts of libraries. -/
def message? : ReadError → Option String
  | .unknownKind name => some ("Unknown value kind: " ++ name)
  | .badNumber e => some e.message
  | .durationTooLong | .badData | .notATree | .unnamedTree => none

def ofJson : JsonError → ReadError
  | .malformed => .badData
  | .badNumber e => .badNumber e

end ReadError

namespace Content

def ofPlainData : Json → Content
  | .null => .blank
  | .bool value => .bool value
  | .number n => .number n
  | .text s => .text s
  | .list items => .list items
  | .table entries => .table entries

def characters (s : String) : List Content :=
  s.toList.map fun c => .text (String.singleton c)

mutual

/-- The tree that a table stores. The second argument holds the entries among which the arguments are
searched. The name is asked for first, and a table without arguments stores a tree without any. -/
def ofTable (all : List (String × Json)) : List (String × Json) → Except ReadError Content
  | [] =>
    match all.lookup "name" with
    | some name => .ok (.formula name [])
    | none => .error .unnamedTree
  | (key, value) :: rest =>
    if key = "args" then
      match all.lookup "name" with
      | some name => do
        let args ← argumentsOf value
        return .formula name args
      | none => .error .unnamedTree
    else ofTable all rest

/-- The arguments that the data in their place stands for. A text stands for its characters and a
table for its keys. -/
def argumentsOf : Json → Except ReadError (List Content)
  | .list items => argumentsOfItems items
  | .text s => .ok (characters s)
  | .table entries => .ok (entries.map fun e => .text e.1)
  | _ => .error .notATree

def argumentsOfItems : List Json → Except ReadError (List Content)
  | [] => .ok []
  | item :: items => do
    let arg ← argumentOf item
    let args ← argumentsOfItems items
    return arg :: args

def argumentOf : Json → Except ReadError Content
  | .table entries => ofTable entries entries
  | data => .ok (ofPlainData data)

end

def ofData : Json → Except ReadError Content
  | .table entries => ofTable entries entries
  | _ => .error .notATree

def booleanOfWord? (word : String) : Option Bool :=
  if ["true", "yes", "on", "1"].contains word then some true
  else if ["false", "no", "0"].contains word then some false
  else none

def ofStoredKind (kind : StoredKind) (s : String) : Except ReadError Content :=
  match kind with
  | .text => .ok (.text s)
  | .number =>
    let cs := trim s.toList
    if isNumeral cs then
      match Number.read (String.ofList cs) with
      | .ok n => .ok (.number n)
      | .error e => .error (.badNumber e)
    else .ok .blank
  | .boolean =>
    match booleanOfWord? s.toLower with
    | some value => .ok (.bool value)
    | none => .ok .blank
  | .date =>
    match Moment.ofIso s.toList with
    | .ok m => .ok (.moment m)
    | .error .malformed => .ok .blank
    | .error .durationTooLong => .error .durationTooLong
  | .formula =>
    match Json.read s with
    | .ok data => ofData data
    | .error e => .error (.ofJson e)

def ofStored (kind : String) (s : Option String) : Except ReadError Content :=
  match s with
  | none => .ok .blank
  | some s =>
    if s.isEmpty then .ok .blank
    else
      match StoredKind.ofName? kind with
      | some k => ofStoredKind k s
      | none => .error (.unknownKind kind)

end Content

end Spreadsheet
