import Mathlib.Algebra.Order.Field.Rat
import Mathlib.Algebra.Order.Ring.Cast
import Mathlib.Order.Compare
import Mathlib.Order.WithBot
import Spreadsheet.Proofs.Number.Order

/-!
# Exact values

Every number other than `nan` has a value, which is a rational number or one of the two infinities. The
order of numbers is the order of their values: a whole number is compared as it is, even if it lies
between two doubles or beyond all of them. So the comparisons have the laws of a linear order, and only
those with `nan` stand outside of it.
-/

namespace Spreadsheet

open Magnitude (unitsPerOne)

/-! ## Comparisons in a linear order -/

def Comparison.Relates {α : Type} [LinearOrder α] : Comparison → α → α → Prop
  | .less, x, y => x < y
  | .greater, x, y => x > y
  | .lessOrEqual, x, y => x ≤ y
  | .greaterOrEqual, x, y => x ≥ y
  | .equal, x, y => x = y
  | .notEqual, x, y => x ≠ y

theorem Comparison.holds_cmp_iff {α : Type} [LinearOrder α] (f : Comparison) (x y : α) :
    f.holds (some (cmp x y)) = true ↔ f.Relates x y := by
  rcases lt_trichotomy x y with h | rfl | h
  · rw [h.cmp_eq_lt]
    cases f <;> simp [holds, Relates, h, h.le, h.ne, h.not_gt, h.not_ge]
  · rw [cmp_self_eq_eq]
    cases f <;> simp [holds, Relates]
  · rw [h.cmp_eq_gt]
    cases f <;> simp [holds, Relates, h, h.le, h.ne', h.not_gt, h.not_ge]

namespace Number

/-! ## Values of numbers -/

abbrev Value : Type := WithBot (WithTop ℚ)

def Value.ofRat (q : ℚ) : Value := WithBot.some (WithTop.some q)

theorem Value.ofRat_lt_ofRat {p q : ℚ} : ofRat p < ofRat q ↔ p < q :=
  WithBot.coe_lt_coe.trans WithTop.coe_lt_coe

theorem Value.bot_lt_ofRat (q : ℚ) : ⊥ < ofRat q :=
  WithBot.bot_lt_coe _

theorem Value.ofRat_lt_top (q : ℚ) : ofRat q < ⊤ :=
  WithBot.coe_lt_coe.mpr (WithTop.coe_lt_top q)

def value? : Number → Option Value
  | .integer n => some (.ofRat n)
  | .double .nan => none
  | .double (.infinity negative) => some (if negative then ⊥ else ⊤)
  | .double (.finite negative m) => some (.ofRat (Double.signedUnits negative m / unitsPerOne))

theorem value?_eq_none_iff {n : Number} : n.value? = none ↔ n.isNaN = true := by
  cases n with
  | integer n => exact iff_of_false nofun nofun
  | double x =>
    cases x with
    | nan => exact iff_of_true rfl rfl
    | infinity negative => exact iff_of_false nofun nofun
    | finite negative m => exact iff_of_false nofun nofun

theorem exists_value_of_isNaN {n : Number} (h : n.isNaN = false) : ∃ x, n.value? = some x := by
  rw [← Option.ne_none_iff_exists', Ne, value?_eq_none_iff, h]
  exact Bool.false_ne_true

/-! ## The order of values -/

def Place.value : Place → Value
  | .leftEnd => ⊥
  | .at units => .ofRat (units / unitsPerOne)
  | .rightEnd => ⊤

theorem unitsPerOne_pos : (0 : ℚ) < unitsPerOne :=
  Nat.cast_pos.mpr (twoPow_pos 1074)

theorem Place.value_lt_value {a b : Int} (h : a < b) : (Place.at a).value < (Place.at b).value :=
  Value.ofRat_lt_ofRat.mpr (div_lt_div_of_pos_right (Int.cast_lt.mpr h) unitsPerOne_pos)

/-- Places lie in the order of their values. -/
theorem Place.compare_eq_cmp (p q : Place) : p.compare q = cmp p.value q.value := by
  cases p with
  | leftEnd =>
    cases q with
    | leftEnd => exact (cmp_self_eq_eq _).symm
    | «at» b => exact (Value.bot_lt_ofRat _).cmp_eq_lt.symm
    | rightEnd => exact bot_lt_top.cmp_eq_lt.symm
  | «at» a =>
    cases q with
    | leftEnd => exact (Value.bot_lt_ofRat _).cmp_eq_gt.symm
    | «at» b =>
      -- Units of both signs are in the order of their quotients by a positive number.
      show Ord.compare a b = _
      rcases lt_trichotomy a b with h | rfl | h
      · rw [compare_lt_iff_lt.mpr h, (value_lt_value h).cmp_eq_lt]
      · rw [compare_eq_iff_eq.mpr rfl, cmp_self_eq_eq]
      · rw [compare_gt_iff_gt.mpr h, (value_lt_value h).cmp_eq_gt]
    | rightEnd => exact (Value.ofRat_lt_top _).cmp_eq_lt.symm
  | rightEnd =>
    cases q with
    | leftEnd => exact bot_lt_top.cmp_eq_gt.symm
    | «at» b => exact (Value.ofRat_lt_top _).cmp_eq_gt.symm
    | rightEnd => exact (cmp_self_eq_eq _).symm

/-- The units of a whole number are its multiple, so its value is the number itself. -/
theorem value?_eq_map_place? (n : Number) : n.value? = n.place?.map Place.value := by
  cases n with
  | integer n =>
    have hunits : ((n * unitsPerOne : Int) : ℚ) / unitsPerOne = n := by
      rw [Int.cast_mul, Int.cast_natCast]
      exact mul_div_cancel_right₀ _ unitsPerOne_pos.ne'
    show some (Value.ofRat n) = some (Value.ofRat ((n * unitsPerOne : Int) / unitsPerOne))
    rw [hunits]
  | double x =>
    cases x with
    | nan => rfl
    | infinity negative => cases negative <;> rfl
    | finite negative m => rfl

theorem compare?_of_values {a b : Number} {x y : Value} (hx : a.value? = some x)
    (hy : b.value? = some y) : a.compare? b = some (cmp x y) := by
  rw [value?_eq_map_place?] at hx hy
  obtain ⟨p, hp, rfl⟩ := Option.map_eq_some_iff.mp hx
  obtain ⟨q, hq, rfl⟩ := Option.map_eq_some_iff.mp hy
  rw [compare?_of_places hp hq, Place.compare_eq_cmp]

theorem compare?_of_isNaN {a b : Number} (h : a.isNaN = true ∨ b.isNaN = true) :
    a.compare? b = none := by
  rcases h with h | h
  · rw [isNaN_iff.mp h]
    rfl
  · rw [isNaN_iff.mp h]
    unfold compare?
    cases a.place? <;> rfl

end Number

end Spreadsheet
