import Spreadsheet.Calendar.Printed
import Spreadsheet.Formula.Function
import Spreadsheet.Json
import Spreadsheet.Number.Exact

/-!
# The content of cells

A cell holds a value, a formula or a record of the host program that holds the content in turn. A
formula is a tree: the name of a function and its arguments, which are trees, values or texts that
are worked out when the formula is evaluated. The name is arbitrary data, since stored trees are read
as they come, and only the names of the fifteen functions mean anything.

The host program keeps some values in forms of its own: exact decimals, formulas that fill a range of
cells, and texts with changes of style. No function takes them for numbers or texts. Reading a cell
turns them into contents of the other kinds.
-/

namespace Spreadsheet

structure TextPart where
  text : String
  styled : Bool
  deriving DecidableEq, Repr

def TextPart.joined (parts : List TextPart) : String :=
  String.join (parts.map TextPart.text)

inductive Content where
  | blank
  | bool (value : Bool)
  | number (n : Number)
  | text (s : String)
  | moment (m : Moment)
  | list (items : List Json)
  | table (entries : List (String × Json))
  | decimal (d : ExactDecimal)
  /-- A formula for a range of cells, of which the text may be missing. -/
  | arrayFormula (text : Option String)
  | richText (parts : List TextPart)
  | record (inner : Content)
  | formula (name : Json) (args : List Content)

namespace Content

def nan : Content := .number .nan

def integer (n : Int) : Content := .number (.integer n)

def call (f : Function) (args : List Content) : Content :=
  .formula (.text f.name) args

def literal (value : Content) : Content :=
  call .literal [value]

def number? : Content → Option Number
  | .number n => some n
  | _ => none

def isNumber (c : Content) : Bool :=
  c.number?.isSome

def isNaN (c : Content) : Bool :=
  c.number?.any Number.isNaN

def isFormula : Content → Bool
  | .formula _ _ => true
  | _ => false

/-- A tree in a message, from the text of its name and arguments. A comma follows a lone argument. -/
def shownTree (name : String) (args : List String) : String :=
  let items :=
    match args with
    | [arg] => arg ++ ","
    | args => ", ".intercalate args
  "CellFunction(name=" ++ name ++ ", args=(" ++ items ++ "))"

mutual

/-- The text of a content in a message, with so many frames left. A tree takes two, and the list of its
arguments one. -/
def shown : (frames : Nat) → Content → Except Unshown String
  | 0, _ => .error .nestedTooDeeply
  | _ + 1, .blank => .ok "None"
  | _ + 1, .bool value => .ok (Json.shownBool value)
  | _ + 1, .number n => n.shown
  | _ + 1, .text s => .ok (Text.shown s)
  | _ + 1, .moment m => .ok m.shown
  | frames + 1, .list items => Json.shown (frames + 1) (.list items)
  | frames + 1, .table entries => Json.shown (frames + 1) (.table entries)
  | _ + 1, .decimal d => .ok d.shown
  | _ + 1, .arrayFormula _ => .ok "array formula"
  | _ + 1, .richText parts => .ok (Text.shown (TextPart.joined parts))
  | _ + 1, .record _ => .ok "record"
  | frames + 1, .formula name args => do
    let name ← name.shown (frames - 1)
    let args ← shownAll (frames - 2) args
    return shownTree name args

def shownAll (frames : Nat) : List Content → Except Unshown (List String)
  | [] => .ok []
  | arg :: args => do
    let part ← shown frames arg
    let parts ← shownAll frames args
    return part :: parts

end

end Content

end Spreadsheet
