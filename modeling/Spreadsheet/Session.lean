import Spreadsheet.Cell
import Spreadsheet.Evaluation
import Spreadsheet.Reference.Shift
import Spreadsheet.Storage

/-!
# Working on a sheet

A session keeps a grid and for every cell the value that was entered, its source. Copying a cell
enters its source elsewhere, with the references of a formula moved along. A value that cannot be
read leaves the cell and its source as they were.
-/

namespace Spreadsheet

structure Source where
  row : Nat
  column : Column
  value : Content

structure Session where
  grid : Grid
  sources : List Source

inductive EntryError where
  | noAddress (reference : String)
  | outside (a : Address)
  | unreadable (e : CellError)
  | unshiftable (e : ShiftError)

namespace Session

def blank (rows columns : Nat) : Session :=
  ⟨Grid.blank rows columns, []⟩

def addressOf (reference : String) : Except EntryError Address :=
  match Address.ofSpelling? reference.toList with
  | some a => .ok a
  | none => .error (.noAddress reference)

def sourceAt (s : Session) (a : Address) : Content :=
  match s.sources.find? fun x => x.row = a.row && x.column.index = a.column.index with
  | some x => x.value
  | none => .blank

def enterAt (s : Session) (a : Address) (value : Content) :
    Except EntryError (Session × Content) :=
  match value.read with
  | .error e => .error (.unreadable e)
  | .ok content =>
    if s.grid.holds a then
      .ok (⟨s.grid.set a content, ⟨a.row, a.column, value⟩ :: s.sources⟩, content)
    else .error (.outside a)

def enter (s : Session) (reference : String) (value : Content) :
    Except EntryError (Session × Content) := do
  s.enterAt (← addressOf reference) value

def formulaText? : Content → Option String
  | .text t => if t.toList.head? = some '=' then some t else none
  | _ => none

/-- What comes of copying a cell: the text of a formula that has moved, and the session with the new
content unless the value cannot be read. -/
structure Copied where
  text : Option String
  outcome : Except EntryError (Session × Content)

def copyAt (s : Session) (source target : Address) : Except EntryError Copied :=
  let value := s.sourceAt source
  match formulaText? value with
  | none => .ok ⟨none, s.enterAt target value⟩
  | some t =>
    match shiftReferences t ((target.row : Int) - source.row)
        ((target.column.index : Int) - source.column.index) with
    | .ok moved => .ok ⟨some moved, s.enterAt target (.text moved)⟩
    | .error e => .error (.unshiftable e)

def copy (s : Session) (source target : String) : Except EntryError Copied := do
  s.copyAt (← addressOf source) (← addressOf target)

def valueOf (s : Session) (reference : String) : Content :=
  s.grid.evaluate 0 (.literal (.text reference))

def referenceTo (row : Nat) (column : Column) : String :=
  String.ofList (column.label ++ Nat.toDigits 10 (row + 1))

def shownRow (s : Session) (row columns : Nat) : Except WriteError (List String) :=
  ((List.range columns).filterMap Column.ofNat?).mapM fun column =>
    (s.valueOf (referenceTo row column)).display

def shown (s : Session) : Except WriteError (List (List String)) :=
  s.grid.rows.zipIdx.mapM fun (cells, row) => s.shownRow row cells.length

end Session

end Spreadsheet
