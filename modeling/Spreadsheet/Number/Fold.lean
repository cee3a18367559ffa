import Spreadsheet.Number

/-!
# Functions of many numbers

Sums, products, differences and quotients are taken from the left. A step that needs the double
nearest to a whole number fails if there is none, and then the whole has no result.

Each step of a sum rounds, that of a mean included, and nothing is carried over to make up for the
rounding. A host that sums doubles with such a compensation gives other means.
-/

namespace Spreadsheet

namespace Number

/-- The sum. It starts from the whole number 0, so the sum of `-0.0` alone is `0.0`. -/
def sum (ns : List Number) : Option Number :=
  ns.foldlM add (.integer 0)

def difference : List Number → Option Number
  | [] => some (.integer 0)
  | n :: ns => ns.foldlM sub n

def product (ns : List Number) : Option Number :=
  ns.foldlM mul (.integer 1)

def quotient : List Number → Option Number
  | [] => some (.integer 0)
  | n :: ns => ns.foldlM div n

def mean (ns : List Number) : Option Number :=
  if ns.isEmpty then some nan
  else do
    let total ← sum ns
    ratio total (.integer ns.length)

/-- Whether `nan` is among numbers, searched from the left. The search needs a double for every
number it passes. -/
def containsNaN : List Number → Option Bool
  | [] => some false
  | n :: ns => do
    let x ← n.toDouble?
    if x.isNaN then return true
    containsNaN ns

def better (wanted : Ordering) (a b : Number) : Number :=
  if compare? b a = some wanted then b else a

/-- The first number that no other one surpasses in the wanted direction. Without numbers it is the
given one, and `nan` among them makes it `nan`. -/
def extremum (wanted : Ordering) (empty : Number) (ns : List Number) : Option Number := do
  if ← containsNaN ns then return nan
  match ns with
  | [] => return empty
  | n :: ns => return ns.foldl (better wanted) n

def maximum (ns : List Number) : Option Number :=
  extremum .gt (.double (.infinity true)) ns

def minimum (ns : List Number) : Option Number :=
  extremum .lt (.double (.infinity false)) ns

end Number

end Spreadsheet
