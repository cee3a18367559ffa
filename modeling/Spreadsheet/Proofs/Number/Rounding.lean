import Spreadsheet.Proofs.Number.Range

/-!
# What rounding changes

A ratio is rounded by less than the distance of two doubles there, not below a double that is as far from
its neighbours, and to a multiple of this distance. What is left of a double behind its point is a double.
-/

namespace Spreadsheet

open Magnitude (unitsPerOne)

namespace Magnitude

theorem spacing_mono {a b : Nat} (h : a ≤ b) : spacing a ≤ spacing b := by
  by_cases ha : a = 0
  · rw [ha]
    exact Nat.zero_le _
  · have hb : b ≠ 0 := by omega
    have hlog : a.log2 < b.log2 + 1 :=
      (log2_lt_iff ha).mpr (Nat.lt_of_le_of_lt h ((log2_lt_iff hb).mp (Nat.lt_succ_self _)))
    unfold spacing
    omega

theorem units_of_round? {num den : Nat} {m : Magnitude} (h : round? num den = some m) :
    m.units = nearest num (den * twoPow (spacing (num / den))) * twoPow (spacing (num / den)) := by
  unfold round? scaled? at h
  split at h
  · cases h
    rfl
  · cases h

/-- A ratio is rounded by less than the distance of two doubles there. -/
theorem units_le_of_round? {num den : Nat} {m : Magnitude} (h : round? num den = some m) :
    m.units ≤ num / den + twoPow (spacing (num / den)) := by
  rw [units_of_round? h]
  generalize spacing (num / den) = s
  calc nearest num (den * twoPow s) * twoPow s
      ≤ (num / (den * twoPow s) + 1) * twoPow s := Nat.mul_le_mul_right _ (nearest_le _ _)
    _ = num / den / twoPow s * twoPow s + twoPow s := by
        rw [Nat.div_div_eq_div_mul, Nat.add_mul, Nat.one_mul]
    _ ≤ num / den + twoPow s := Nat.add_le_add_right (Nat.div_mul_le_self _ _) _

/-- A ratio is not rounded below a double that is as far from its neighbours. -/
theorem le_units_of_round? {num den k : Nat} {m : Magnitude} (h : round? num den = some m)
    (hdvd : twoPow (spacing (num / den)) ∣ k) (hk : k ≤ num / den) : k ≤ m.units := by
  rw [units_of_round? h]
  generalize spacing (num / den) = s at hdvd
  obtain ⟨j, rfl⟩ := hdvd
  rw [Nat.mul_comm]
  apply Nat.mul_le_mul_right
  calc j ≤ num / den / twoPow s := (Nat.le_div_iff_mul_le (twoPow_pos s)).mpr (Nat.mul_comm j _ ▸ hk)
    _ = num / (den * twoPow s) := Nat.div_div_eq_div_mul _ _ _
    _ ≤ nearest num (den * twoPow s) := div_le_nearest _ _

theorem dvd_units_of_round? {num den k : Nat} {m : Magnitude} (h : round? num den = some m)
    (hk : k ≤ spacing (num / den)) : twoPow k ∣ m.units := by
  rw [units_of_round? h]
  exact Nat.dvd_trans (twoPow_dvd_twoPow hk) (Nat.dvd_mul_left _ _)

def fraction (m : Magnitude) : Magnitude where
  units := m.units % unitsPerOne
  lt_limit := Nat.lt_of_le_of_lt (Nat.mod_le _ _) m.lt_limit
  spaced := by
    have hsmall : m.units % unitsPerOne < twoPow (1074 + 53) :=
      Nat.lt_of_lt_of_le (Nat.mod_lt _ (twoPow_pos 1074)) (twoPow_le_twoPow (by decide))
    have hone := spacing_le_of_lt hsmall
    have hself : twoPow (spacing (m.units % unitsPerOne)) ∣ m.units :=
      Nat.dvd_trans (twoPow_dvd_twoPow (spacing_mono (Nat.mod_le _ _))) m.spaced
    exact (Nat.dvd_mod_iff (twoPow_dvd_twoPow hone)).mpr hself

end Magnitude

theorem Double.round_eq_finite_iff {negative : Bool} {num den : Nat} {sign : Bool} {m : Magnitude} :
    Double.round negative num den = .finite sign m ↔
      negative = sign ∧ Magnitude.round? num den = some m := by
  unfold Double.round
  cases Magnitude.round? num den with
  | none => simp
  | some n => simp

/-- A double read from a decimal is zero or the ratio rounded. -/
theorem Decimal.round?_of_toDouble {c k : Nat} {negative : Bool} {m : Magnitude}
    (h : (⟨false, c, -k⟩ : Decimal).toDouble = .finite negative m) :
    m.units = 0 ∨ Magnitude.round? (c * unitsPerOne) (tenPow k) = some m := by
  unfold Decimal.toDouble at h
  dsimp only at h
  split at h
  · cases h
    exact .inl rfl
  · right
    split at h
    · cases h
    · split at h
      · obtain rfl : k = 0 := by omega
        have hone : c * tenPow (-((0 : Nat) : Int)).toNat = c := Nat.mul_one c
        rw [hone] at h
        exact (Double.round_eq_finite_iff.mp h).2
      · have hk : (-(-(k : Int))).toNat = k := by omega
        rw [hk] at h
        exact (Double.round_eq_finite_iff.mp h).2

end Spreadsheet
