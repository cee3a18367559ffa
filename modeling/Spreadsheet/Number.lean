import Spreadsheet.Number.Double

/-!
# Numbers of a sheet

A number is an unbounded whole number or a double. Whole numbers stay whole under addition,
subtraction and multiplication, and a whole number that meets a double becomes the nearest double.
A whole number beyond all doubles has none, and such an operation has no result. The order is exact:
a whole number and a double are compared by value, without rounding.
-/

namespace Spreadsheet

inductive Number where
  | integer (n : Int)
  | double (x : Double)
  deriving DecidableEq

namespace Number

def nan : Number := .double .nan

def isNaN : Number → Bool
  | .integer _ => false
  | .double x => x.isNaN

def isZero : Number → Bool
  | .integer n => n = 0
  | .double (.finite _ m) => m.units = 0
  | .double _ => false

def toDouble? : Number → Option Double
  | .integer n => Double.ofInt? n
  | .double x => some x

def onDoubles (op : Double → Double → Double) (a b : Number) : Option Number := do
  let x ← a.toDouble?
  let y ← b.toDouble?
  return .double (op x y)

def neg : Number → Number
  | .integer n => .integer (-n)
  | .double x => .double x.neg

def add : Number → Number → Option Number
  | .integer a, .integer b => some (.integer (a + b))
  | a, b => onDoubles Double.add a b

def sub : Number → Number → Option Number
  | .integer a, .integer b => some (.integer (a - b))
  | a, b => onDoubles Double.sub a b

def mul : Number → Number → Option Number
  | .integer a, .integer b => some (.integer (a * b))
  | a, b => onDoubles Double.mul a b

/-- The quotient by a number other than zero. It is always a double: of two whole numbers the one
nearest to their ratio. -/
def ratio : Number → Number → Option Number
  | .integer a, .integer b => (Double.ofRatio? a b).map .double
  | a, b => onDoubles Double.div a b

/-- The quotient by a zero: nothing for zero and for `nan`, else an infinity whose sign is that of
the dividend times that of the zero. -/
def overZero (a zero : Number) : Option Number := do
  let x ← a.toDouble?
  let y ← zero.toDouble?
  if a.isZero || x.isNaN then return nan
  return .double (.infinity (x.isNegative ^^ y.isNegative))

def div (a b : Number) : Option Number :=
  if b.isZero then overZero a b else ratio a b

/-! ## Order -/

/-- A place on the number line, counted in units of the doubles. -/
inductive Place where
  | leftEnd
  | at (units : Int)
  | rightEnd
  deriving DecidableEq

def place? : Number → Option Place
  | .integer n => some (.at (n * Magnitude.unitsPerOne))
  | .double .nan => none
  | .double (.infinity s) => some (if s then .leftEnd else .rightEnd)
  | .double (.finite s m) => some (.at (Double.signedUnits s m))

def Place.compare : Place → Place → Ordering
  | .leftEnd, .leftEnd => .eq
  | .leftEnd, _ => .lt
  | .at _, .leftEnd => .gt
  | .at a, .at b => Ord.compare a b
  | .at _, .rightEnd => .lt
  | .rightEnd, .rightEnd => .eq
  | .rightEnd, _ => .gt

def compare? (a b : Number) : Option Ordering := do
  let p ← a.place?
  let q ← b.place?
  return p.compare q

end Number

end Spreadsheet
