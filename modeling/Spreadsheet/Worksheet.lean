import Spreadsheet.Cell
import Spreadsheet.Grid

/-!
# Worksheets

A worksheet holds the cells that were assigned, in the order of their first assignment. Its grid
reaches from the first cell to the greatest row and column among them. A text is cut to the
greatest length that a cell takes. Refused are control characters, trees, lists, tables and records,
and places outside the worksheet.
-/

namespace Spreadsheet

def maxTextLength : Nat := 32767

/-- The control characters that no cell takes. Tab and line break are allowed. -/
def isForbidden (c : Char) : Bool :=
  c.toNat < 0x20 && c ≠ '\t' && c ≠ '\n' && c ≠ '\r'

def maxRow : Nat := 1048576

inductive AssignError where
  | zeroPlace
  | noRow (row : Nat)
  | forbiddenCharacter
  | wrongKind (shown : String)
  | unshown (e : Unshown)
  deriving DecidableEq, Repr

def AssignError.message? : AssignError → Option String
  | .zeroPlace => some "Row or column values must be at least 1"
  | .noRow row =>
    some ("Row numbers must be between 1 and " ++ toString maxRow ++ ". Row number supplied was " ++
      toString row)
  | .forbiddenCharacter => none
  | .wrongKind shown => some ("Cannot convert " ++ shown ++ " to Excel")
  | .unshown e => e.message?

def AssignError.ofKind (value : Content) : AssignError :=
  match value.shown maxFrames with
  | .ok shown => .wrongKind shown
  | .error e => .unshown e

def Content.isAssignable : Content → Bool
  | .list _ | .table _ | .record _ | .formula _ _ => false
  | _ => true

structure WorksheetCell where
  row : Nat
  column : Nat
  value : Content

def WorksheetCell.isAt (row column : Nat) (c : WorksheetCell) : Bool :=
  c.row = row && c.column = column

structure Worksheet where
  cells : List WorksheetCell

namespace Worksheet

def empty : Worksheet := ⟨[]⟩

def kept : Content → Except AssignError Content
  | .text s =>
    let cs := s.toList.take maxTextLength
    if cs.any isForbidden then .error .forbiddenCharacter else .ok (.text (String.ofList cs))
  | value => if value.isAssignable then .ok value else .error (.ofKind value)

def place (cell : WorksheetCell) : List WorksheetCell → List WorksheetCell
  | [] => [cell]
  | c :: cells => if c.isAt cell.row cell.column then cell :: cells else c :: place cell cells

def assign (w : Worksheet) (row column : Nat) (value : Content) : Except AssignError Worksheet :=
  if row = 0 ∨ column = 0 then .error .zeroPlace
  else if maxRow < row then .error (.noRow row)
  else (kept value).map fun value => ⟨place ⟨row, column, value⟩ w.cells⟩

def value? (w : Worksheet) (row column : Nat) : Option Content :=
  (w.cells.find? (WorksheetCell.isAt row column)).map (·.value)

/-- A cell that was placed is found at its own place, and all others are found as before. -/
theorem find?_place (cell : WorksheetCell) (cells : List WorksheetCell) (row column : Nat) :
    (place cell cells).find? (WorksheetCell.isAt row column) =
      if cell.isAt row column then some cell
      else cells.find? (WorksheetCell.isAt row column) := by
  -- The cell is put where the first cell of its place stands, so the search is followed cell by
  -- cell.
  induction cells with
  | nil => by_cases h : cell.isAt row column <;> simp [place, h]
  | cons c cells ih =>
    unfold place
    split
    · rename_i hsame
      -- the new cell stands where the old one stood
      have heq : c.isAt row column = cell.isAt row column := by
        simp only [WorksheetCell.isAt, Bool.and_eq_true, decide_eq_true_eq] at hsame ⊢
        rw [hsame.1, hsame.2]
      by_cases h : cell.isAt row column <;> simp [h, heq]
    · rename_i hother
      by_cases hc : c.isAt row column
      · -- then the new cell stands elsewhere
        have hcell : cell.isAt row column = false := by
          simp only [WorksheetCell.isAt, Bool.and_eq_true, decide_eq_true_eq, not_and,
            Bool.and_eq_false_iff, decide_eq_false_iff_not] at hc hother ⊢
          omega
        simp [hc, hcell]
      · simp [hc, ih]

def rowCount (w : Worksheet) : Nat :=
  w.cells.foldl (fun n c => max n c.row) 1

def columnCount (w : Worksheet) : Nat :=
  w.cells.foldl (fun n c => max n c.column) 1

def read (w : Worksheet) (row column : Nat) : Except CellError Content :=
  match w.value? row column with
  | some value => value.read
  | none => .ok .blank

/-- The grid of a worksheet. The cells are read row by row, and the first one that cannot be read
decides. -/
def grid (w : Worksheet) : Except CellError Grid :=
  let rows := (List.range w.rowCount).mapM fun row =>
    (List.range w.columnCount).mapM fun column => w.read (row + 1) (column + 1)
  rows.map Grid.mk

end Worksheet

end Spreadsheet
