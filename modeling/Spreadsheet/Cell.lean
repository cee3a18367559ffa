import Spreadsheet.Formula.Parser

/-!
# Reading cells

A cell comes from the host program with a value as it was entered. Reading it turns the host program's
own forms into contents that formulas can use, and a text that starts with an equals sign becomes the
formula that it spells.
-/

namespace Spreadsheet

inductive CellError where
  | badFormula (e : ParseError)
  | signalingDecimal

namespace CellError

def message : CellError → String
  | .badFormula e => e.message
  | .signalingDecimal => "cannot convert signaling NaN to float"

end CellError

namespace Content

def readText (s : String) : Except CellError Content :=
  if s.toList.head? = some '=' then (Formula.parse s).mapError .badFormula else .ok (.text s)

/-- The content of a cell. A date becomes the midnight on which it begins. -/
def read : Content → Except CellError Content
  | .text s => readText s
  | .moment (.date d) => .ok (.moment (.dateTime ⟨d, Time.midnight⟩))
  | .decimal d =>
    match d.toDouble? with
    | some x => .ok (.number (.double x))
    | none => .error .signalingDecimal
  | .arrayFormula none => .ok .blank
  | .arrayFormula (some s) => readText s
  | .richText parts => readText (TextPart.joined parts)
  | c => .ok c

end Content

end Spreadsheet
