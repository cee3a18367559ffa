import Spreadsheet.Content
import Spreadsheet.Reference

/-!
# Grids of cells

A grid is a list of rows of cells, which may differ in length. Every cell outside it is blank.
-/

namespace Spreadsheet

structure Grid where
  rows : List (List Content)

namespace Grid

def cell? (g : Grid) (row column : Nat) : Option Content :=
  g.rows[row]?.bind fun cells => cells[column]?

/-- What is in a cell. A record of the host program gives the content it holds. -/
def opened : Content → Content
  | .record inner => inner
  | c => c

/-- The content at an address. Rows of an address count from 1. -/
def content (g : Grid) (a : Address) : Content :=
  match a.row with
  | 0 => .blank
  | row + 1 => opened ((g.cell? row a.column.index).getD .blank)

def blank (rows columns : Nat) : Grid :=
  ⟨List.replicate rows (List.replicate columns .blank)⟩

def holds (g : Grid) (a : Address) : Bool :=
  match a.row with
  | 0 => false
  | row + 1 => (g.cell? row a.column.index).isSome

def set (g : Grid) (a : Address) (c : Content) : Grid :=
  match a.row with
  | 0 => g
  | row + 1 => ⟨g.rows.modify row fun cells => cells.set a.column.index c⟩

end Grid

end Spreadsheet
