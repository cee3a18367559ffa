import Spreadsheet.Number.Power

/-!
# Binary floating-point numbers of 64 bits

A finite double is a sign and a whole number of *units*, where one unit is `2 ^ (-1074)`, the least
positive double. Counting in units makes every operation exact arithmetic on natural numbers
followed by one rounding: to the nearest double, a tie to the one with the even significand.
A magnitude has a single representation, so equality of doubles is equality of values that tells
`0.0` and `-0.0` apart and finds `nan` equal to itself.
-/

namespace Spreadsheet

namespace Magnitude

def unitsPerOne : Nat := twoPow 1074

def bits : Nat := 2098

def limit : Nat := twoPow bits

/-- Doubles near `n` units are `twoPow (spacing n)` units apart: a significand has 53 bits. -/
def spacing (n : Nat) : Nat := n.log2 - 52

theorem twoPow_spacing_dvd {m k : Nat} (hm : m ≤ twoPow 53) :
    twoPow (spacing (m * twoPow k)) ∣ m * twoPow k := by
  by_cases hzero : m = 0
  · simp [hzero]
  · have hpos : m * twoPow k ≠ 0 := Nat.mul_ne_zero hzero (Nat.pos_iff_ne_zero.mp (twoPow_pos k))
    by_cases htop : m = twoPow 53
    · rw [htop, ← twoPow_add, spacing, log2_twoPow]
      exact twoPow_dvd_twoPow (by omega)
    · have hlog : (m * twoPow k).log2 < 53 + k := by
        rw [log2_lt_iff hpos, twoPow_add]
        exact Nat.mul_lt_mul_of_pos_right (by omega) (twoPow_pos k)
      exact Nat.dvd_trans (twoPow_dvd_twoPow (by unfold spacing; omega)) (Nat.dvd_mul_left _ _)

end Magnitude

structure Magnitude where
  units : Nat
  lt_limit : units < Magnitude.limit
  spaced : twoPow (Magnitude.spacing units) ∣ units
  deriving DecidableEq

namespace Magnitude

theorem ext {a b : Magnitude} (h : a.units = b.units) : a = b := by
  cases a
  cases b
  simp_all

def zero : Magnitude := ⟨0, twoPow_pos bits, Nat.dvd_zero _⟩

def scaled? (m k : Nat) (hm : m ≤ twoPow 53) : Option Magnitude :=
  if h : m * twoPow k < limit then some ⟨m * twoPow k, h, twoPow_spacing_dvd hm⟩ else none

/-- The whole number nearest to `a / b`, a tie going to the even one. -/
def nearest (a b : Nat) : Nat :=
  let whole := a / b
  let rest := a % b
  if 2 * rest < b then whole
  else if b < 2 * rest then whole + 1
  else whole + whole % 2

theorem nearest_le (a b : Nat) : nearest a b ≤ a / b + 1 := by
  unfold nearest
  dsimp only
  split
  · omega
  · split <;> omega

theorem nearest_div_twoPow_le (num den : Nat) :
    nearest num (den * twoPow (spacing (num / den))) ≤ twoPow 53 := by
  refine Nat.le_trans (nearest_le _ _) ?_
  rw [← Nat.div_div_eq_div_mul]
  generalize num / den = q
  have hq : q < twoPow (spacing q) * twoPow 53 := by
    rw [← twoPow_add]
    exact Nat.lt_of_lt_of_le (lt_twoPow_log2 q) (twoPow_le_twoPow (by unfold spacing; omega))
  exact Nat.div_lt_of_lt_mul hq

def round? (num den : Nat) : Option Magnitude :=
  scaled? (nearest num (den * twoPow (spacing (num / den)))) (spacing (num / den))
    (nearest_div_twoPow_le num den)

end Magnitude

inductive Double where
  | nan
  | infinity (negative : Bool)
  | finite (negative : Bool) (magnitude : Magnitude)
  deriving DecidableEq

namespace Double

open Magnitude (unitsPerOne)

def zero (negative : Bool) : Double := .finite negative .zero

def round (negative : Bool) (num den : Nat) : Double :=
  match Magnitude.round? num den with
  | some m => .finite negative m
  | none => .infinity negative

def signedUnits (negative : Bool) (m : Magnitude) : Int :=
  if negative then -(m.units : Int) else m.units

def neg : Double → Double
  | .nan => .nan
  | .infinity s => .infinity (!s)
  | .finite s m => .finite (!s) m

/-- The sum. Two numbers that cancel give `0.0`, and only two negative zeros give `-0.0`. -/
def add : Double → Double → Double
  | .nan, _ => .nan
  | _, .nan => .nan
  | .infinity s, .infinity t => if s = t then .infinity s else .nan
  | .infinity s, .finite _ _ => .infinity s
  | .finite _ _, .infinity t => .infinity t
  | .finite s m, .finite t n =>
    let total := signedUnits s m + signedUnits t n
    if total = 0 then zero (s && t) else round (total < 0) total.natAbs 1

def sub (x y : Double) : Double := add x (neg y)

def mul : Double → Double → Double
  | .nan, _ => .nan
  | _, .nan => .nan
  | .infinity s, .infinity t => .infinity (s ^^ t)
  | .infinity s, .finite t n => if n.units = 0 then .nan else .infinity (s ^^ t)
  | .finite s m, .infinity t => if m.units = 0 then .nan else .infinity (s ^^ t)
  | .finite s m, .finite t n => round (s ^^ t) (m.units * n.units) unitsPerOne

/-- The quotient. Zero by zero and infinity by infinity are no numbers, and any other number by
zero is infinite. -/
def div : Double → Double → Double
  | .nan, _ => .nan
  | _, .nan => .nan
  | .infinity _, .infinity _ => .nan
  | .infinity s, .finite t _ => .infinity (s ^^ t)
  | .finite s _, .infinity t => zero (s ^^ t)
  | .finite s m, .finite t n =>
    if n.units = 0 then
      if m.units = 0 then .nan else .infinity (s ^^ t)
    else round (s ^^ t) (m.units * unitsPerOne) n.units

def ofInt? (n : Int) : Option Double :=
  (Magnitude.round? (n.natAbs * unitsPerOne) 1).map (.finite (n < 0))

/-- The double nearest to the quotient of two whole numbers, or `none` if that lies beyond all
finite doubles. Zero by a negative number is `-0.0`. -/
def ofRatio? (a b : Int) : Option Double :=
  (Magnitude.round? (a.natAbs * unitsPerOne) b.natAbs).map (.finite ((a < 0) ^^ (b < 0)))

def toInt? : Double → Option Int
  | .finite s m =>
    if m.units % unitsPerOne = 0 then
      some (if s then -(m.units / unitsPerOne : Nat) else (m.units / unitsPerOne : Nat))
    else none
  | _ => none

def splitWhole (m : Magnitude) : Nat × Nat :=
  (m.units / unitsPerOne, m.units % unitsPerOne)

def isNaN : Double → Bool
  | .nan => true
  | _ => false

def isNegative : Double → Bool
  | .nan => false
  | .infinity s => s
  | .finite s _ => s

/-! ## The interchange format -/

def toBits : Double → UInt64
  | .nan => 0x7ff8000000000000
  | .infinity s => if s then 0xfff0000000000000 else 0x7ff0000000000000
  | .finite s m =>
    let k := Magnitude.spacing m.units
    let low := k * twoPow 52 + m.units / twoPow k
    UInt64.ofNat (if s then twoPow 63 + low else low)

theorem fraction_lt (w : Nat) : w % twoPow 52 < twoPow 52 :=
  Nat.mod_lt w (twoPow_pos 52)

theorem twoPow_53 : twoPow 53 = twoPow 52 + twoPow 52 := by decide

theorem fraction_le (w : Nat) : w % twoPow 52 ≤ twoPow 53 := by
  have := fraction_lt w
  have := twoPow_53
  omega

theorem normal_le (w : Nat) : twoPow 52 + w % twoPow 52 ≤ twoPow 53 := by
  have := fraction_lt w
  have := twoPow_53
  omega

/-- The double of a word. An exponent of eleven ones marks infinities and `nan`, and one of eleven
zeros the numbers without a leading one in the significand. -/
def ofBits (word : UInt64) : Double :=
  let w := word.toNat
  let s : Bool := twoPow 63 ≤ w
  let exponent := w / twoPow 52 % twoPow 11
  if exponent = twoPow 11 - 1 then
    if w % twoPow 52 = 0 then .infinity s else .nan
  else
    let m? :=
      if exponent = 0 then Magnitude.scaled? (w % twoPow 52) 0 (fraction_le w)
      else Magnitude.scaled? (twoPow 52 + w % twoPow 52) (exponent - 1) (normal_le w)
    match m? with
    | some m => .finite s m
    | none => .infinity s

end Double

end Spreadsheet
