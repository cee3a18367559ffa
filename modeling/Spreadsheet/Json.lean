import Spreadsheet.Number
import Spreadsheet.Number.Numeral
import Spreadsheet.Number.Printed
import Spreadsheet.Text.Shown

/-!
# Structured data

Lists and tables can stand among the arguments of a stored formula. They take part in no
computation, but they are kept and shown. The entries of a table keep the order in which their keys
were first met.
-/

namespace Spreadsheet

/-- The frames of the stack. Whatever reads, evaluates or shows what is inside something else takes up
frames while it does so. -/
def maxFrames : Nat := 1000

inductive Unshown where
  | numberTooLong
  | nestedTooDeeply
  deriving DecidableEq, Repr

def Unshown.message? : Unshown → Option String
  | .numberTooLong => some NumeralError.tooLongToWrite
  | .nestedTooDeeply => none

def Number.shown (n : Number) : Except Unshown String :=
  match n.shown? with
  | some s => .ok s
  | none => .error .numberTooLong

inductive Json where
  | null
  | bool (value : Bool)
  | number (n : Number)
  | text (s : String)
  | list (items : List Json)
  | table (entries : List (String × Json))

namespace Json

/-- Puts an entry into a table. A key that is there already keeps its place. -/
def insertEntry (key : String) (value : Json) : List (String × Json) → List (String × Json)
  | [] => [(key, value)]
  | (k, v) :: rest => if k = key then (key, value) :: rest else (k, v) :: insertEntry key value rest

def shownBool (value : Bool) : String :=
  if value then "True" else "False"

mutual

def shown : (frames : Nat) → Json → Except Unshown String
  | 0, _ => .error .nestedTooDeeply
  | _ + 1, .null => .ok "None"
  | _ + 1, .bool value => .ok (shownBool value)
  | _ + 1, .number n => n.shown
  | _ + 1, .text s => .ok (Text.shown s)
  | frames + 1, .list items =>
    (shownItems frames items).map fun parts => "[" ++ ", ".intercalate parts ++ "]"
  | frames + 1, .table entries =>
    (shownEntries frames entries).map fun parts => "\x7b" ++ ", ".intercalate parts ++ "\x7d"

def shownItems (frames : Nat) : List Json → Except Unshown (List String)
  | [] => .ok []
  | item :: items => do
    let part ← shown frames item
    let parts ← shownItems frames items
    return part :: parts

def shownEntries (frames : Nat) : List (String × Json) → Except Unshown (List String)
  | [] => .ok []
  | (key, value) :: entries => do
    let part ← shown frames value
    let parts ← shownEntries frames entries
    return (Text.shown key ++ ": " ++ part) :: parts

end

end Json

end Spreadsheet
