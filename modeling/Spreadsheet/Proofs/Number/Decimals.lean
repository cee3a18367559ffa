import Spreadsheet.Number.Shortest

/-!
# Decimals that read back

The double nearest to a decimal depends on the value of the decimal alone: factors of ten can be moved
between the coefficient and the exponent. The shortest decimal of a double reads back as this double.
-/

namespace Spreadsheet

/-! ## Rounding a fraction -/

namespace Magnitude

theorem nearest_mul (a b : Nat) {k : Nat} (hk : 0 < k) : nearest (a * k) (b * k) = nearest a b := by
  unfold nearest
  dsimp only
  rw [Nat.mul_div_mul_right a b hk, Nat.mul_mod_mul_right]
  have hlow : 2 * (a % b * k) < b * k ↔ 2 * (a % b) < b := by
    rw [← Nat.mul_assoc]
    exact Nat.mul_lt_mul_right hk
  have hhigh : b * k < 2 * (a % b * k) ↔ b < 2 * (a % b) := by
    rw [← Nat.mul_assoc]
    exact Nat.mul_lt_mul_right hk
  simp only [hlow, hhigh]

theorem nearest_of_dvd {a b : Nat} (h : b ∣ a) (hb : 0 < b) : nearest a b = a / b := by
  unfold nearest
  dsimp only
  rw [Nat.mod_eq_zero_of_dvd h, if_pos hb]

theorem scaled?_congr {m n j k : Nat} (hm : m ≤ twoPow 53) (hn : n ≤ twoPow 53) (h : m = n)
    (hk : j = k) : scaled? m j hm = scaled? n k hn := by
  subst h hk
  rfl

/-- Rounding depends on the value of a fraction alone. -/
theorem round?_mul (num den : Nat) {k : Nat} (hk : 0 < k) :
    round? (num * k) (den * k) = round? num den := by
  unfold round?
  have hquotient : num * k / (den * k) = num / den := Nat.mul_div_mul_right num den hk
  apply scaled?_congr
  · rw [hquotient, Nat.mul_right_comm den k, nearest_mul _ _ hk]
  · rw [hquotient]

/-- A magnitude is the nearest one to itself. -/
theorem round?_units (m : Magnitude) : round? m.units 1 = some m := by
  have hspaced := m.spaced
  unfold round?
  have hnearest : nearest m.units (1 * twoPow (spacing (m.units / 1))) =
      m.units / twoPow (spacing m.units) := by
    rw [Nat.div_one, Nat.one_mul]
    exact nearest_of_dvd hspaced (twoPow_pos _)
  have hunits : m.units / twoPow (spacing m.units) * twoPow (spacing m.units) = m.units :=
    Nat.div_mul_cancel hspaced
  have hmantissa : m.units / twoPow (spacing m.units) ≤ twoPow 53 := by
    rw [← hnearest]
    exact nearest_div_twoPow_le _ _
  rw [scaled?_congr _ hmantissa hnearest (congrArg spacing (Nat.div_one _))]
  unfold scaled?
  have hlimit : m.units / twoPow (spacing m.units) * twoPow (spacing m.units) < limit := by
    rw [hunits]
    exact m.lt_limit
  rw [dif_pos hlimit]
  exact congrArg some (ext hunits)

end Magnitude

theorem Double.natAbs_signedUnits (negative : Bool) (m : Magnitude) :
    (signedUnits negative m).natAbs = m.units := by
  unfold signedUnits
  split
  · rw [Int.natAbs_neg, Int.natAbs_natCast]
  · rw [Int.natAbs_natCast]

theorem Double.round_mul (negative : Bool) (num den : Nat) {k : Nat} (hk : 0 < k) :
    Double.round negative (num * k) (den * k) = Double.round negative num den := by
  unfold Double.round
  rw [Magnitude.round?_mul num den hk]

/-! ## Decimals of the same value -/

theorem decimalLength_mul_ten {c : Nat} (h : 0 < c) :
    decimalLength (c * 10) = decimalLength c + 1 := by
  have happend := Nat.toDigits_append_toDigits (b := 10) (d := 0) (by decide) h (by decide)
  unfold decimalLength
  rw [Nat.mul_comm, ← Nat.add_zero (10 * c), ← happend, List.length_append, Nat.toDigits_zero]
  rfl

theorem tenPow_succ (k : Nat) : tenPow (k + 1) = tenPow k * 10 := tenPow_add k 1

namespace Decimal

open Magnitude (unitsPerOne)

/-- A factor of ten of the coefficient can go into the exponent. -/
theorem toDouble_mul_ten (negative : Bool) (c : Nat) (e : Int) :
    toDouble ⟨negative, c * 10, e⟩ = toDouble ⟨negative, c, e + 1⟩ := by
  by_cases hc : c = 0
  · subst hc
    rfl
  · have htop : (decimalLength (c * 10) : Int) + e = decimalLength c + (e + 1) := by
      rw [decimalLength_mul_ten (Nat.pos_of_ne_zero hc)]
      omega
    have hround : (if 0 ≤ e then
          Double.round negative (c * 10 * tenPow e.toNat * unitsPerOne) 1
        else Double.round negative (c * 10 * unitsPerOne) (tenPow (-e).toNat)) =
        if 0 ≤ e + 1 then Double.round negative (c * tenPow (e + 1).toNat * unitsPerOne) 1
        else Double.round negative (c * unitsPerOne) (tenPow (-(e + 1)).toNat) := by
      have hten : c * 10 * unitsPerOne = c * unitsPerOne * 10 := Nat.mul_right_comm c 10 unitsPerOne
      by_cases hnonneg : 0 ≤ e
      · have hsucc : (e + 1).toNat = e.toNat + 1 := by omega
        rw [if_pos hnonneg, if_pos (by omega), hsucc, tenPow_succ, Nat.mul_assoc c 10,
          Nat.mul_comm 10]
      · have hsucc : (-e).toNat = (-(e + 1)).toNat + 1 := by omega
        rw [if_neg hnonneg, hten, hsucc, tenPow_succ, Double.round_mul _ _ _ (by decide)]
        by_cases hone : 0 ≤ e + 1
        · -- The exponent is -1, so that the denominator is 1 on both sides.
          obtain rfl : e = -1 := by omega
          rw [if_pos hone]
          show _ = Double.round negative (c * 1 * unitsPerOne) 1
          rw [Nat.mul_one]
          rfl
        · rw [if_neg hone]
    have hc' : c * 10 ≠ 0 := Nat.mul_ne_zero hc (by decide)
    unfold toDouble
    dsimp only
    rw [htop, hround]
    simp only [hc, hc']

theorem toDouble_mul_tenPow (negative : Bool) (c k : Nat) (e : Int) :
    toDouble ⟨negative, c * tenPow k, e⟩ = toDouble ⟨negative, c, e + k⟩ := by
  -- One factor of ten moves over to the exponent at each step.
  induction k generalizing e with
  | zero =>
    show toDouble ⟨negative, c * 1, e⟩ = toDouble ⟨negative, c, e + 0⟩
    rw [Nat.mul_one, Int.add_zero]
  | succ k ih =>
    have hsum : e + 1 + k = e + (k + 1 : Nat) := by omega
    rw [tenPow_succ, ← Nat.mul_assoc, toDouble_mul_ten, ih, hsum]

end Decimal

/-! ## The shortest decimal -/

namespace Double

theorem toDouble_withoutTrailingZeros (steps : Nat) (d : Decimal) :
    (withoutTrailingZeros steps d).toDouble = d.toDouble := by
  -- A zero that is dropped moves over to the exponent.
  induction steps generalizing d with
  | zero => rfl
  | succ steps ih =>
    unfold withoutTrailingZeros
    split
    · rename_i h
      rw [ih, ← Decimal.toDouble_mul_ten, Nat.div_mul_cancel (Nat.dvd_of_mod_eq_zero h.2)]
    · rfl

theorem decimalLength_le {n k : Nat} (hk : 0 < k) (h : n < tenPow k) : decimalLength n ≤ k :=
  (Nat.length_toDigits_le_iff (by decide) hk).mpr h

theorem lt_decimalLength {n k : Nat} (hk : 0 < k) (h : tenPow k ≤ n) : k < decimalLength n := by
  rw [← Nat.not_le]
  intro hle
  exact absurd ((Nat.length_toDigits_le_iff (by decide) hk).mp hle) (Nat.not_lt.mpr h)

/-- The exact value of a magnitude lies within the bounds between which decimals are worked out. -/
theorem toDouble_exactDecimal (negative : Bool) {m : Magnitude} (hm : m.units ≠ 0) :
    (exactDecimal negative m).toDouble = .finite negative m := by
  have hpos : 0 < m.units := Nat.pos_of_ne_zero hm
  have hfive : 0 < Nat.pow 5 1074 := by decide +kernel
  have hlow : 750 < decimalLength (m.units * Nat.pow 5 1074) := by
    apply lt_decimalLength (by decide)
    have hpower : tenPow 750 ≤ Nat.pow 5 1074 := by decide +kernel
    exact Nat.le_trans hpower (Nat.le_mul_of_pos_left _ hpos)
  have hhigh : decimalLength (m.units * Nat.pow 5 1074) ≤ 1383 := by
    apply decimalLength_le (by decide)
    have hpower : Magnitude.limit * Nat.pow 5 1074 < tenPow 1383 := by decide +kernel
    exact Nat.lt_trans (Nat.mul_lt_mul_of_pos_right m.lt_limit hfive) hpower
  have hten : Nat.pow 5 1074 * Magnitude.unitsPerOne = tenPow 1074 := by decide +kernel
  have hround : round negative (m.units * tenPow 1074) (1 * tenPow 1074) = .finite negative m := by
    rw [round_mul _ _ _ (tenPow_pos 1074)]
    unfold round
    rw [Magnitude.round?_units]
  have hne : m.units * Nat.pow 5 1074 ≠ 0 := Nat.mul_ne_zero hm (Nat.pos_iff_ne_zero.mp hfive)
  unfold exactDecimal Decimal.toDouble
  dsimp only
  rw [if_neg (by omega), if_neg (by omega), if_neg (by decide), Nat.mul_assoc, hten]
  rw [Nat.one_mul] at hround
  exact hround

theorem toDouble_shortest (negative : Bool) (m : Magnitude) :
    (shortest negative m).toDouble = .finite negative m := by
  unfold shortest
  by_cases hm : m.units = 0
  · rw [if_pos hm]
    have hzero : m = .zero := Magnitude.ext hm
    rw [hzero]
    rfl
  · rw [if_neg hm]
    dsimp only
    split
    · rename_i d hfound
      have hreads := List.find?_some hfound
      simp only [decide_eq_true_eq] at hreads
      rw [toDouble_withoutTrailingZeros, hreads]
    · exact toDouble_exactDecimal negative hm

/-- Only zeros are written with the coefficient zero, and these without an exponent. -/
theorem exponent_shortest (negative : Bool) (m : Magnitude)
    (h : (shortest negative m).coefficient = 0) : (shortest negative m).exponent = 0 := by
  have hzero : (shortest negative m).toDouble = zero (shortest negative m).negative := by
    unfold Decimal.toDouble
    exact if_pos (.inl h)
  rw [toDouble_shortest] at hzero
  have hm : m.units = 0 := congrArg Magnitude.units (Double.finite.inj hzero).2
  unfold shortest
  rw [if_pos hm]

end Double

end Spreadsheet
