import Spreadsheet.Reference.Column
import Spreadsheet.Text.Digit

/-!
# References to cells

A reference is a column in capital letters and a row in decimal digits of any script, each of which a
dollar sign in front anchors: `A1`, `$B$3`. The address of a reference is the column and the row that
it means. A reference whose column lies beyond `ZZZ` or whose row has too many digits has none.
-/

namespace Spreadsheet

open Text

structure Reference where
  columnAnchored : Bool
  letters : List Char
  rowAnchored : Bool
  digits : List Char
  deriving DecidableEq, Repr

/-- Where a reference points. Rows count from 1, and row 0 lies outside every grid. -/
structure Address where
  row : Nat
  column : Column
  rowAnchored : Bool
  columnAnchored : Bool
  deriving DecidableEq

namespace Reference

def splitAnchor : List Char → Bool × List Char
  | '$' :: cs => (true, cs)
  | cs => (false, cs)

def take? (cs : List Char) : Option (Reference × List Char) :=
  let (columnAnchored, cs) := splitAnchor cs
  let letters := cs.takeWhile isCapital
  let (rowAnchored, cs) := splitAnchor (cs.dropWhile isCapital)
  let digits := cs.takeWhile isDecimal
  if letters.isEmpty || digits.isEmpty then none
  else some (⟨columnAnchored, letters, rowAnchored, digits⟩, cs.dropWhile isDecimal)

/-- The reference that a text spells. One line break may follow it. -/
def ofSpelling? (cs : List Char) : Option Reference :=
  match take? (dropFinalNewline cs) with
  | some (r, []) => some r
  | _ => none

def spelling (r : Reference) : List Char :=
  (if r.columnAnchored then ['$'] else []) ++ r.letters ++
    (if r.rowAnchored then ['$'] else []) ++ r.digits

theorem splitAnchor_append (cs : List Char) :
    (if (splitAnchor cs).1 then ['$'] else []) ++ (splitAnchor cs).2 = cs := by
  unfold splitAnchor
  split <;> rfl

/-- The spelling of a reference and what follows it make up the text. -/
theorem take?_append {cs rest : List Char} {r : Reference} (h : take? cs = some (r, rest)) :
    r.spelling ++ rest = cs := by
  unfold take? at h
  dsimp only at h
  split at h
  · simp at h
  · simp only [Option.some.injEq, Prod.mk.injEq] at h
    obtain ⟨rfl, rfl⟩ := h
    simp only [spelling, List.append_assoc, List.takeWhile_append_dropWhile, splitAnchor_append]

def address? (r : Reference) : Option Address :=
  match Column.ofLabel? r.letters with
  | none => none
  | some column =>
    if maxDigits < r.digits.length then none
    else some ⟨decimalValue r.digits, column, r.rowAnchored, r.columnAnchored⟩

end Reference

def isReference (cs : List Char) : Bool :=
  (Reference.ofSpelling? cs).isSome

def Address.ofSpelling? (cs : List Char) : Option Address :=
  (Reference.ofSpelling? cs).bind Reference.address?

theorem isReference_of_ofSpelling? {cs : List Char} {a : Address}
    (h : Address.ofSpelling? cs = some a) : isReference cs = true := by
  obtain ⟨r, hr, -⟩ := Option.bind_eq_some_iff.mp h
  simp [isReference, hr]

end Spreadsheet
