import Mathlib.Tactic.Ring
import Spreadsheet.Proofs.Number.Running

/-!
# Whole numbers with a nearest double

A whole number has a nearest double if it lies below the middle between the greatest double and the
power of two behind that. From the middle on it would be rounded to this power of two, which is no
double.
-/

namespace Spreadsheet

theorem twoPow_succ (k : Nat) : twoPow (k + 1) = 2 * twoPow k := Nat.pow_succ'

namespace Magnitude

theorem div_le_nearest (a b : Nat) : a / b ≤ nearest a b := by
  unfold nearest
  dsimp only
  split
  · exact Nat.le_refl _
  · split
    · exact Nat.le_succ _
    · exact Nat.le_add_right _ _

theorem spacing_le_of_lt {n k : Nat} (h : n < twoPow (k + 53)) : spacing n ≤ k := by
  unfold spacing
  by_cases hn : n = 0
  · rw [hn]
    exact Nat.zero_le k
  · have hlog := (log2_lt_iff hn).mpr h
    omega

/-- A ratio is rounded to an even number or beyond from half a step below this number on. -/
theorem le_nearest_iff {a q k : Nat} (hq : 0 < q) (heven : k % 2 = 0) (hk : 0 < k) :
    k ≤ nearest a (2 * q) ↔ (2 * k - 1) * q ≤ a := by
  have hsplit : 2 * q * (a / (2 * q)) + a % (2 * q) = a := Nat.div_add_mod a (2 * q)
  have hrest : a % (2 * q) < 2 * q := Nat.mod_lt a (by omega)
  unfold nearest
  dsimp only
  generalize a % (2 * q) = r at hsplit hrest ⊢
  generalize a / (2 * q) = w at hsplit ⊢
  rcases Nat.lt_trichotomy (w + 1) k with hlt | heq | hgt
  · -- Even the next whole number lies below `k`.
    obtain ⟨j, rfl⟩ : ∃ j, k = w + 2 + j := ⟨k - (w + 2), by omega⟩
    have hstep : (2 * (w + 2 + j) - 1) * q = 2 * q * w + 2 * (q * j) + 3 * q := by
      have hpred : 2 * (w + 2 + j) - 1 = 2 * w + 2 * j + 3 := by omega
      rw [hpred]
      ring
    rw [hstep]
    constructor
    · intro hle
      split at hle
      · omega
      · split at hle <;> omega
    · omega
  · -- Here the rest decides, and in the middle `k` is taken because `w` is odd.
    subst heq
    have hstep : (2 * (w + 1) - 1) * q = 2 * q * w + q := by
      have hpred : 2 * (w + 1) - 1 = 2 * w + 1 := by omega
      rw [hpred]
      ring
    rw [hstep]
    split
    · omega
    · split <;> omega
  · -- The quotient alone comes to `k`.
    obtain ⟨j, rfl⟩ : ∃ j, w = k + j := ⟨w - k, by omega⟩
    have hstep : 2 * q * (k + j) = 2 * k * q + 2 * (q * j) := by ring
    have hpred : (2 * k - 1) * q + q = 2 * k * q := by
      rw [← Nat.succ_mul]
      congr 1
      omega
    constructor
    · omega
    · intro _
      split
      · omega
      · split <;> omega

theorem scaled?_eq_none_iff {m k : Nat} (hm : m ≤ twoPow 53) :
    scaled? m k hm = none ↔ limit ≤ m * twoPow k := by
  unfold scaled?
  split
  · rename_i hlt
    exact iff_of_false (Option.some_ne_none _) (Nat.not_le.mpr hlt)
  · rename_i hle
    exact iff_of_true rfl (Nat.not_lt.mp hle)

/-! ## Where rounding reaches the limit -/

/-- Below the greatest power of two among the doubles a number is rounded to this power at most. -/
theorem nearest_mul_lt_limit {n : Nat} (h : n < twoPow 2097) :
    nearest n (twoPow (spacing n)) * twoPow (spacing n) < limit := by
  have hmantissa : nearest n (twoPow (spacing n)) ≤ twoPow 53 := by
    have hnearest := nearest_div_twoPow_le n 1
    rw [Nat.div_one, Nat.one_mul] at hnearest
    exact hnearest
  have hspacing : spacing n ≤ 2044 := spacing_le_of_lt h
  have hdouble : limit = 2 * twoPow 2097 := twoPow_succ 2097
  have hpos := twoPow_pos 2097
  calc nearest n (twoPow (spacing n)) * twoPow (spacing n)
      ≤ twoPow 53 * twoPow 2044 := Nat.mul_le_mul hmantissa (twoPow_le_twoPow hspacing)
    _ = twoPow 2097 := (twoPow_add 53 2044).symm
    _ < limit := by omega

/-- From this power on the doubles are `2 ^ 2045` units apart. -/
theorem limit_le_nearest_mul_iff {n : Nat} (hlow : twoPow 2097 ≤ n) (hhigh : n < limit) :
    limit ≤ nearest n (twoPow (spacing n)) * twoPow (spacing n) ↔ limit - twoPow 2044 ≤ n := by
  have hn : n ≠ 0 := Nat.pos_iff_ne_zero.mp (Nat.lt_of_lt_of_le (twoPow_pos 2097) hlow)
  have hspacing : spacing n = 2045 := by
    have hlt : n.log2 < bits := (log2_lt_iff hn).mpr hhigh
    have hge : ¬ n.log2 < 2097 := fun h => Nat.not_lt.mpr hlow ((log2_lt_iff hn).mp h)
    unfold bits at hlt
    unfold spacing
    omega
  have hlimit : limit = twoPow 53 * twoPow 2045 := twoPow_add 53 2045
  have hhalf : twoPow 2045 = 2 * twoPow 2044 := twoPow_succ 2044
  have hfactor : limit ≤ nearest n (twoPow 2045) * twoPow 2045 ↔
      twoPow 53 ≤ nearest n (twoPow 2045) := by
    rw [hlimit]
    exact Nat.mul_le_mul_right_iff (twoPow_pos 2045)
  have hmiddle : (2 * twoPow 53 - 1) * twoPow 2044 = limit - twoPow 2044 := by
    rw [Nat.sub_mul, Nat.one_mul, hlimit, hhalf, Nat.mul_left_comm, Nat.mul_assoc]
  rw [hspacing, hfactor, hhalf, le_nearest_iff (twoPow_pos 2044) (by decide) (by decide), hmiddle]

theorem limit_le_nearest_mul {n : Nat} (h : limit ≤ n) :
    limit ≤ nearest n (twoPow (spacing n)) * twoPow (spacing n) := by
  have hn : n ≠ 0 := Nat.pos_iff_ne_zero.mp (Nat.lt_of_lt_of_le (twoPow_pos 2098) h)
  have hlog : 2098 ≤ n.log2 := by
    by_contra hsmall
    exact Nat.not_lt.mpr h ((log2_lt_iff hn).mp (Nat.not_le.mp hsmall))
  have hspacing : spacing n + 52 = n.log2 := by
    unfold spacing
    omega
  have hpower : twoPow 52 * twoPow (spacing n) = twoPow n.log2 := by
    rw [← twoPow_add, Nat.add_comm, hspacing]
  have hwhole : twoPow 52 ≤ nearest n (twoPow (spacing n)) := by
    refine Nat.le_trans ((Nat.le_div_iff_mul_le (twoPow_pos _)).mpr ?_) (div_le_nearest _ _)
    rw [hpower]
    exact Nat.log2_self_le hn
  calc limit ≤ twoPow n.log2 := twoPow_le_twoPow hlog
    _ = twoPow 52 * twoPow (spacing n) := hpower.symm
    _ ≤ nearest n (twoPow (spacing n)) * twoPow (spacing n) := Nat.mul_le_mul_right _ hwhole

/-- Half a step of the greatest doubles below the limit is where rounding reaches the limit. -/
theorem round?_eq_none_iff {n : Nat} : round? n 1 = none ↔ limit - twoPow 2044 ≤ n := by
  have hstep : twoPow 2044 ≤ twoPow 2097 := twoPow_le_twoPow (by decide)
  have hpos : 0 < twoPow 2044 := twoPow_pos 2044
  have hdouble : limit = 2 * twoPow 2097 := twoPow_succ 2097
  unfold round?
  rw [scaled?_eq_none_iff, Nat.div_one, Nat.one_mul]
  by_cases hlow : n < twoPow 2097
  · exact iff_of_false (Nat.not_le.mpr (nearest_mul_lt_limit hlow)) (by omega)
  · by_cases hhigh : n < limit
    · exact limit_le_nearest_mul_iff (Nat.not_lt.mp hlow) hhigh
    · exact iff_of_true (limit_le_nearest_mul (Nat.not_lt.mp hhigh)) (by omega)

end Magnitude

namespace Double

def firstBeyond : Nat := twoPow 1024 - twoPow 970

theorem ofInt?_eq_none_iff {n : Int} : ofInt? n = none ↔ firstBeyond ≤ n.natAbs := by
  have hlimit : Magnitude.limit = twoPow 1024 * Magnitude.unitsPerOne := by
    unfold Magnitude.unitsPerOne
    exact twoPow_add 1024 1074
  have hhalf : twoPow 2044 = twoPow 970 * Magnitude.unitsPerOne := by
    unfold Magnitude.unitsPerOne
    exact twoPow_add 970 1074
  unfold ofInt? firstBeyond
  rw [Option.map_eq_none_iff, Magnitude.round?_eq_none_iff, hlimit, hhalf, ← Nat.sub_mul]
  exact Nat.mul_le_mul_right_iff (twoPow_pos 1074)

theorem exists_finite_of_ofInt? {n : Int} {x : Double} (h : ofInt? n = some x) :
    ∃ m, x = .finite (n < 0) m := by
  obtain ⟨m, -, rfl⟩ := Option.map_eq_some_iff.mp h
  exact ⟨m, rfl⟩

end Double

namespace Number

def HasDouble : Number → Prop
  | .integer n => n.natAbs < Double.firstBeyond
  | .double _ => True

instance : DecidablePred HasDouble
  | .integer n => inferInstanceAs (Decidable (n.natAbs < Double.firstBeyond))
  | .double _ => inferInstanceAs (Decidable True)

theorem hasDouble_iff {n : Number} : n.HasDouble ↔ ∃ x, n.toDouble? = some x := by
  cases n with
  | integer k =>
    show k.natAbs < Double.firstBeyond ↔ ∃ x, Double.ofInt? k = some x
    rw [← Option.ne_none_iff_exists', Ne, Double.ofInt?_eq_none_iff, Nat.not_le]
  | double x => exact iff_of_true trivial ⟨x, rfl⟩

theorem hasDouble_double (x : Double) : (double x).HasDouble := trivial

theorem isNaN_of_toDouble? {n : Number} {x : Double} (h : n.toDouble? = some x) :
    x.isNaN = n.isNaN := by
  cases n with
  | integer k =>
    obtain ⟨m, rfl⟩ := Double.exists_finite_of_ofInt? h
    rfl
  | double y =>
    cases h
    rfl

theorem toDouble?_eq_none_iff {n : Number} : n.toDouble? = none ↔ ¬ n.HasDouble := by
  rw [hasDouble_iff, ← Option.ne_none_iff_exists', not_not]

end Number

end Spreadsheet
