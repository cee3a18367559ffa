import Mathlib.Tactic.Ring
import Spreadsheet.Proofs.Calendar.Reading
import Spreadsheet.Proofs.Number.Decimals
import Spreadsheet.Proofs.Number.Rounding

/-!
# Durations beyond the greatest one

A duration takes less than `10 ^ 9` days. The seconds are read as a double and their fraction is multiplied
as a double, so that it is rounded three times before the days are counted. But three digits keep the
fraction far enough below one: no rounding makes another second of it, and the whole seconds decide alone
whether a duration is too long.
-/

namespace Spreadsheet

open Magnitude (unitsPerOne)

namespace Magnitude

def million : Magnitude where
  units := 1000000 * unitsPerOne
  lt_limit := by
    have hlimit : limit = twoPow 1024 * unitsPerOne := by
      unfold unitsPerOne
      exact twoPow_add 1024 1074
    rw [hlimit]
    exact Nat.mul_lt_mul_of_pos_right (by decide +kernel) (twoPow_pos 1074)
  spaced := twoPow_spacing_dvd (by decide)

def margin : Nat := twoPow 1063

theorem unitsPerOne_eq : unitsPerOne = 2048 * margin := by
  have heleven : twoPow 11 = 2048 := by decide
  unfold unitsPerOne margin
  rw [← heleven]
  exact twoPow_add 11 1063

end Magnitude

open Magnitude (margin unitsPerOne_eq)

/-! ## The fraction of the seconds -/

/-- The exact value of a decimal with up to three digits behind the point: its whole part and less than
one, by a thousandth at least. -/
theorem exists_part_of_ratio {c k : Nat} (hk : k ≤ 3) :
    ∃ part, c * unitsPerOne / tenPow k = c / tenPow k * unitsPerOne + part ∧
      1000 * part ≤ 999 * unitsPerOne := by
  have hten : 0 < tenPow k := tenPow_pos k
  have hthousand : tenPow k ≤ 1000 := Nat.pow_le_pow_right (by decide) hk
  have hrest : c % tenPow k < tenPow k := Nat.mod_lt c hten
  have hc : c * unitsPerOne = c % tenPow k * unitsPerOne + tenPow k * (c / tenPow k * unitsPerOne) := by
    conv_lhs => rw [← Nat.div_add_mod c (tenPow k)]
    ring
  refine ⟨c % tenPow k * unitsPerOne / tenPow k, ?_, ?_⟩
  · rw [hc, Nat.add_mul_div_left _ _ hten, Nat.add_comm]
  · apply Nat.le_of_mul_le_mul_left _ hten
    calc tenPow k * (1000 * (c % tenPow k * unitsPerOne / tenPow k))
        = 1000 * (tenPow k * (c % tenPow k * unitsPerOne / tenPow k)) := Nat.mul_left_comm _ _ _
      _ ≤ 1000 * (c % tenPow k * unitsPerOne) := Nat.mul_le_mul_left _ (Nat.mul_div_le _ _)
      _ = 1000 * (c % tenPow k) * unitsPerOne := (Nat.mul_assoc _ _ _).symm
      _ ≤ 999 * tenPow k * unitsPerOne := Nat.mul_le_mul_right _ (by omega)
      _ = tenPow k * (999 * unitsPerOne) := by ring

/-- Three digits of a second leave a margin to the next second, and rounding does not use it up. -/
theorem Decimal.fraction_add_margin_le {c k : Nat} (hk : k ≤ 3) {negative : Bool} {m : Magnitude}
    (h : (⟨false, c, -k⟩ : Decimal).toDouble = .finite negative m) :
    m.fraction.units + margin ≤ unitsPerOne := by
  have hone := unitsPerOne_eq
  have hpos : 0 < margin := twoPow_pos 1063
  rcases Decimal.round?_of_toDouble h with hzero | hround
  · have hnone : m.fraction.units = 0 := by
      show m.units % unitsPerOne = 0
      rw [hzero, Nat.zero_mod]
    omega
  · by_cases hfar : 1063 ≤ Magnitude.spacing (c * unitsPerOne / tenPow k)
    · -- Doubles that lie as far apart are multiples of the margin, and so is what is left of one.
      have hdvd : margin ∣ m.units := Magnitude.dvd_units_of_round? hround hfar
      have hdvd' : margin ∣ m.fraction.units :=
        (Nat.dvd_mod_iff (Dvd.intro_left 2048 hone.symm)).mpr hdvd
      have hlt : m.fraction.units < unitsPerOne := Nat.mod_lt _ (twoPow_pos 1074)
      obtain ⟨j, hj⟩ := hdvd'
      rw [hj, hone, Nat.mul_comm] at hlt ⊢
      have hj' : j < 2048 := Nat.lt_of_mul_lt_mul_right hlt
      calc j * margin + margin = (j + 1) * margin := by rw [Nat.add_mul, Nat.one_mul]
        _ ≤ 2048 * margin := Nat.mul_le_mul_right _ hj'
    · -- The double lies between the whole seconds and the exact value with the margin.
      obtain ⟨part, hvalue, hpart⟩ := exists_part_of_ratio (c := c) hk
      have hnear : twoPow (Magnitude.spacing (c * unitsPerOne / tenPow k)) ≤ margin :=
        twoPow_le_twoPow (by omega)
      have hwhole : twoPow (Magnitude.spacing (c * unitsPerOne / tenPow k)) ∣
          c / tenPow k * unitsPerOne :=
        Nat.dvd_trans (twoPow_dvd_twoPow (by omega)) (Nat.dvd_mul_left _ _)
      have hupper := Magnitude.units_le_of_round? hround
      have hlower := Magnitude.le_units_of_round? hround hwhole (by omega)
      obtain ⟨rest, hrest⟩ := Nat.exists_eq_add_of_le hlower
      have hbound : rest + margin ≤ unitsPerOne := by omega
      have hfraction : m.fraction.units = rest := by
        show m.units % unitsPerOne = rest
        rw [hrest, Nat.mul_add_mod_self_right]
        exact Nat.mod_eq_of_lt (by omega)
      rw [hfraction]
      exact hbound

/-! ## Microseconds -/

/-- The product that turns a fraction of a second into microseconds: no infinity, and rounded by less than
the margin. -/
theorem exists_micros {rest : Magnitude} (h : rest.units < unitsPerOne) :
    ∃ micros : Magnitude,
      (Double.finite false rest).mul (.finite false .million) = .finite false micros ∧
        micros.units ≤ rest.units * 1000000 + margin := by
  have hpos : 0 < unitsPerOne := twoPow_pos 1074
  have hproduct : (Double.finite false rest).mul (.finite false .million) =
      Double.round false (rest.units * 1000000) 1 := by
    show Double.round (false ^^ false) (rest.units * (1000000 * unitsPerOne)) unitsPerOne = _
    have hround := Double.round_mul false (rest.units * 1000000) 1 hpos
    rw [Nat.one_mul, Nat.mul_assoc] at hround
    exact hround
  have hsmall : rest.units * 1000000 < twoPow 1094 := by
    have htwenty : twoPow 1094 = unitsPerOne * twoPow 20 := by
      unfold unitsPerOne
      exact twoPow_add 1074 20
    have hmillion : 1000000 ≤ twoPow 20 := by decide
    rw [htwenty]
    exact Nat.mul_lt_mul_of_lt_of_le h hmillion (by decide)
  have hbelow : rest.units * 1000000 < Magnitude.limit - twoPow 2044 := by
    have hbinade : twoPow 1094 ≤ twoPow 2044 := twoPow_le_twoPow (by decide)
    have hdouble : twoPow 2045 = 2 * twoPow 2044 := twoPow_succ 2044
    have hlimit : twoPow 2045 ≤ Magnitude.limit := twoPow_le_twoPow (by decide)
    omega
  cases hround : Magnitude.round? (rest.units * 1000000) 1 with
  | none => exact absurd (Magnitude.round?_eq_none_iff.mp hround) (Nat.not_le.mpr hbelow)
  | some micros =>
    refine ⟨micros, ?_, ?_⟩
    · rw [hproduct]
      exact Double.round_eq_finite_iff.mpr ⟨rfl, hround⟩
    · have hnear := Magnitude.units_le_of_round? hround
      have hspacing : twoPow (Magnitude.spacing (rest.units * 1000000 / 1)) ≤ margin := by
        rw [Nat.div_one]
        exact twoPow_le_twoPow (Magnitude.spacing_le_of_lt
          (Nat.lt_of_lt_of_le hsmall (twoPow_le_twoPow (by decide))))
      omega

/-- Whole seconds and microseconds that are rounded to less than another second. -/
theorem nearest_div_million (whole : Nat) {micros : Nat} (h : micros + unitsPerOne < 1000000 * unitsPerOne) :
    Magnitude.nearest (whole * 1000000 * unitsPerOne + micros) unitsPerOne / 1000000 = whole := by
  have hpos : 0 < unitsPerOne := twoPow_pos 1074
  have hdiv : (whole * 1000000 * unitsPerOne + micros) / unitsPerOne =
      whole * 1000000 + micros / unitsPerOne := by
    rw [Nat.add_comm, Nat.add_mul_div_right _ _ hpos, Nat.add_comm]
  have hmicros : micros / unitsPerOne < 999999 := by
    rw [Nat.div_lt_iff_lt_mul hpos]
    omega
  have hlower := Magnitude.div_le_nearest (whole * 1000000 * unitsPerOne + micros) unitsPerOne
  have hupper := Magnitude.nearest_le (whole * 1000000 * unitsPerOne + micros) unitsPerOne
  rw [hdiv] at hlower hupper
  generalize micros / unitsPerOne = part at hmicros hlower hupper
  omega

namespace Duration

theorem ofMicroseconds?_eq_none_iff {n : Nat} :
    ofMicroseconds? n = none ↔ 86400 * 1000000000 ≤ n / 1000000 := by
  unfold ofMicroseconds? of?
  dsimp only
  split
  · exact iff_of_false (Option.some_ne_none _) (by omega)
  · exact iff_of_true rfl (by omega)

/-- Whether hours, minutes and seconds come to more than the greatest duration: to `10 ^ 9` days. -/
def IsTooLong (hours minutes : Nat) : Double → Prop
  | .finite _ m => 86400 * 1000000000 ≤ (hours * 60 + minutes) * 60 + m.units / unitsPerOne
  | _ => True

theorem ofParts?_eq_none_iff (hours minutes : Nat) {c k : Nat} (hk : k ≤ 3) :
    ofParts? hours minutes (⟨false, c, -k⟩ : Decimal).toDouble = none ↔
      IsTooLong hours minutes (⟨false, c, -k⟩ : Decimal).toDouble := by
  cases hx : (⟨false, c, -k⟩ : Decimal).toDouble with
  | nan => exact iff_of_true rfl trivial
  | infinity _ => exact iff_of_true rfl trivial
  | finite negative m =>
    -- The seconds have at most three decimals, so rounding cannot carry them over a full second.
    have hmargin := Decimal.fraction_add_margin_le hk hx
    have hone := Magnitude.unitsPerOne_eq
    have hpos : 0 < margin := twoPow_pos 1063
    have hless : m.fraction.units < unitsPerOne := by omega
    obtain ⟨micros, hproduct, hmicros⟩ := exists_micros hless
    have hrest : Double.round false (m.units % unitsPerOne) 1 = .finite false m.fraction :=
      Double.round_eq_finite_iff.mpr ⟨rfl, Magnitude.round?_units m.fraction⟩
    have hmillion : Double.round false (1000000 * unitsPerOne) 1 = .finite false .million :=
      Double.round_eq_finite_iff.mpr ⟨rfl, Magnitude.round?_units .million⟩
    have hspare : micros.units + unitsPerOne < 1000000 * unitsPerOne := by omega
    have hsecond := nearest_div_million ((hours * 60 + minutes) * 60 + m.units / unitsPerOne) hspare
    unfold ofParts? Double.splitWhole
    dsimp only
    rw [hrest, hmillion, hproduct]
    dsimp only
    rw [ofMicroseconds?_eq_none_iff, hsecond]
    rfl

end Duration

def SpellsTooLong (cs : List Char) : Prop :=
  ∃ hours minutes seconds, DurationAtFront cs hours minutes seconds ∧
    Duration.IsTooLong (hours.getD 0) (minutes.getD 0)
      ((seconds.map Decimal.toDouble).getD (.zero false))

theorem DecimalAtFront.exists_places {cs : List Char} {d : Decimal} (h : DecimalAtFront cs d) :
    ∃ c k : Nat, k ≤ 3 ∧ d = ⟨false, c, -k⟩ := by
  cases h with
  | whole hds => exact ⟨_, 0, by decide, rfl⟩
  | fraction hds hfs hlength => exact ⟨_, _, hlength, rfl⟩

theorem DurationAtFront.ofWritten?_eq_none_iff {cs : List Char} {hours minutes : Option Nat}
    {seconds : Option Decimal} (h : DurationAtFront cs hours minutes seconds) :
    Duration.ofWritten? hours minutes seconds = none ↔
      Duration.IsTooLong (hours.getD 0) (minutes.getD 0)
        ((seconds.map Decimal.toDouble).getD (.zero false)) := by
  have hplaces : ∃ c k : Nat, k ≤ 3 ∧
      (seconds.map Decimal.toDouble).getD (.zero false) = (⟨false, c, -k⟩ : Decimal).toDouble := by
    cases seconds with
    | none => exact ⟨0, 0, by decide, rfl⟩
    | some d =>
      obtain ⟨-, -, back, -, -, -, hseconds, -⟩ := h
      obtain ⟨c, k, hk, rfl⟩ := ((hseconds d).mp rfl).exists_places
      exact ⟨c, k, hk, rfl⟩
  obtain ⟨c, k, hk, hdouble⟩ := hplaces
  unfold Duration.ofWritten?
  rw [hdouble]
  exact Duration.ofParts?_eq_none_iff _ _ hk

theorem Moment.ofIso_eq_durationTooLong_iff {cs : List Char} :
    Moment.ofIso cs = .error .durationTooLong ↔ SpellsTooLong cs := by
  constructor
  · intro h
    rcases readFrom_or_tooLong_or_malformed cs with ⟨m, hm⟩ | ⟨hours, minutes, seconds, hparts, hnone⟩ |
      hmalformed
    · rw [hm.ofIso_eq] at h
      cases h
    · exact ⟨hours, minutes, seconds, hparts, hparts.ofWritten?_eq_none_iff.mp hnone⟩
    · rw [hmalformed] at h
      cases h
  · rintro ⟨hours, minutes, seconds, hparts, hlong⟩
    exact ofIso_of_tooLong hparts (hparts.ofWritten?_eq_none_iff.mpr hlong)

end Spreadsheet
