import Spreadsheet.Proofs.Evaluation.Arguments
import Spreadsheet.Proofs.Number.Decimals

/-!
# Running results

A sum, a difference, a product or a quotient of many numbers goes on from the result for the first of
them. It makes no difference if this result is taken as a single number of its own: adding it to 0 or
multiplying it by 1 gives it back with its sign, since no sum is `-0.0`.
-/

namespace Spreadsheet

/-! ## Nothing added and multiplied by one -/

theorem twoPow_lt_twoPow {a b : Nat} (h : a < b) : twoPow a < twoPow b :=
  Nat.pow_lt_pow_right (by decide) h

namespace Magnitude

def one : Magnitude where
  units := unitsPerOne
  lt_limit := twoPow_lt_twoPow (by decide)
  spaced := by
    unfold unitsPerOne spacing
    rw [log2_twoPow]
    exact twoPow_dvd_twoPow (by decide)

theorem units_one : one.units = unitsPerOne := by
  simp only [one]

/-- A whole number of units other than zero is not rounded to zero. -/
theorem units_pos_of_round? {n : Nat} {m : Magnitude} (h : round? n 1 = some m) (hn : 0 < n) :
    0 < m.units := by
  unfold round? scaled? at h
  split at h
  · cases h
    show 0 < nearest n (1 * twoPow (spacing (n / 1))) * twoPow (spacing (n / 1))
    rw [Nat.div_one, Nat.one_mul]
    refine Nat.mul_pos ?_ (twoPow_pos _)
    -- Neighbouring doubles are no further apart than `n` units, so `n` has one of them below it.
    have hspacing : twoPow (spacing n) ≤ n := by
      refine Nat.le_trans (twoPow_le_twoPow (Nat.sub_le _ 52)) ?_
      exact Nat.log2_self_le (Nat.pos_iff_ne_zero.mp hn)
    have hwhole : 0 < n / twoPow (spacing n) := Nat.div_pos hspacing (twoPow_pos _)
    unfold nearest
    dsimp only
    split
    · exact hwhole
    · split <;> omega
  · cases h

end Magnitude

namespace Double

open Magnitude (unitsPerOne)

theorem ofInt?_zero : ofInt? 0 = some (zero false) := by
  have hround : Magnitude.round? (Int.natAbs 0 * unitsPerOne) 1 = some .zero := by
    rw [Int.natAbs_zero, Nat.zero_mul]
    exact Magnitude.round?_units .zero
  unfold ofInt?
  rw [hround]
  rfl

theorem ofInt?_one : ofInt? 1 = some (.finite false .one) := by
  have hround : Magnitude.round? (Int.natAbs 1 * unitsPerOne) 1 = some .one := by
    rw [Int.natAbs_one, Nat.one_mul, ← Magnitude.units_one]
    exact Magnitude.round?_units .one
  unfold ofInt?
  rw [hround]
  rfl

theorem round_units (negative : Bool) (m : Magnitude) :
    round negative m.units 1 = .finite negative m := by
  unfold round
  rw [Magnitude.round?_units]

/-- Adding 0 changes nothing but the sign of `-0.0`. -/
theorem zero_add {x : Double} (h : x ≠ zero true) : add (zero false) x = x := by
  cases x with
  | nan => rfl
  | infinity s => rfl
  | finite s m =>
    have htotal : signedUnits false .zero + signedUnits s m = signedUnits s m := Int.zero_add _
    have hunits := natAbs_signedUnits s m
    unfold zero add
    dsimp only
    rw [htotal]
    -- A sum of no units is the positive zero, which is why the negative one is excluded.
    by_cases hzero : signedUnits s m = 0
    · rw [if_pos hzero]
      rw [hzero] at hunits
      obtain rfl : m = .zero := Magnitude.ext hunits.symm
      cases s with
      | true => exact absurd rfl h
      | false => rfl
    · have hsign : decide (signedUnits s m < 0) = s := by
        unfold signedUnits at hzero ⊢
        cases s with
        | true => exact decide_eq_true (by simp at hzero ⊢; omega)
        | false => exact decide_eq_false (by simp)
      rw [if_neg hzero, hunits, hsign]
      exact round_units s m

theorem one_mul (x : Double) : mul (.finite false .one) x = x := by
  have hpos : 0 < unitsPerOne := twoPow_pos _
  cases x with
  | nan => rfl
  | infinity s =>
    unfold mul
    dsimp only
    rw [Magnitude.units_one, if_neg (by omega), Bool.false_xor]
  | finite s m =>
    have hround := round_mul s m.units 1 hpos
    rw [Nat.one_mul] at hround
    unfold mul
    dsimp only
    rw [Magnitude.units_one, Nat.mul_comm, Bool.false_xor, hround]
    exact round_units s m

/-- Rounding a number of units other than zero does not give a zero. -/
theorem round_ne_zero {negative : Bool} {n : Nat} (hn : 0 < n) (s : Bool) :
    round negative n 1 ≠ zero s := by
  unfold round
  cases h : Magnitude.round? n 1 with
  | none => exact nofun
  | some m =>
    have hpos := Magnitude.units_pos_of_round? h hn
    intro heq
    have hm : m = .zero := (finite.inj heq).2
    rw [hm] at hpos
    exact absurd hpos (Nat.lt_irrefl 0)

/-- The sum of two numbers is `-0.0` only if both are. -/
theorem add_ne_zero {x : Double} (h : x ≠ zero true) (y : Double) : add x y ≠ zero true := by
  cases x with
  | nan => exact nofun
  | infinity s =>
    cases y with
    | nan => exact nofun
    | infinity t =>
      show (if s = t then infinity s else nan) ≠ zero true
      by_cases hst : s = t
      · rw [if_pos hst]
        exact nofun
      · rw [if_neg hst]
        exact nofun
    | finite t n => exact nofun
  | finite s m =>
    cases y with
    | nan => exact nofun
    | infinity t => exact nofun
    | finite t n =>
      have hs := natAbs_signedUnits s m
      have ht := natAbs_signedUnits t n
      unfold add
      dsimp only
      by_cases htotal : signedUnits s m + signedUnits t n = 0
      · rw [if_pos htotal]
        intro hzero
        have hboth : (s && t) = true := (finite.inj hzero).1
        rw [Bool.and_eq_true] at hboth
        obtain ⟨rfl, rfl⟩ := hboth
        -- Two numbers below zero cancel only if neither of them is below zero.
        have hm : m.units = 0 := by
          unfold signedUnits at htotal
          simp only [if_true] at htotal
          omega
        exact h (congrArg (finite true) (Magnitude.ext hm))
      · rw [if_neg htotal]
        exact round_ne_zero (by omega) true

theorem ne_zero_of_ofInt? {n : Int} {x : Double} (h : ofInt? n = some x) : x ≠ zero true := by
  obtain ⟨m, hm, rfl⟩ := Option.map_eq_some_iff.mp h
  intro hzero
  obtain ⟨hneg, hmagnitude⟩ := finite.inj hzero
  have hpos : 0 < n.natAbs * unitsPerOne :=
    Nat.mul_pos (by have := of_decide_eq_true hneg; omega) (twoPow_pos _)
  have hunits := Magnitude.units_pos_of_round? hm hpos
  rw [hmagnitude] at hunits
  exact absurd hunits (Nat.lt_irrefl 0)

end Double

namespace Number

/-! ## Results taken as single numbers -/

theorem add_ne_zero {a b c : Number} (ha : a ≠ .double (.zero true)) (h : add a b = some c) :
    c ≠ .double (.zero true) := by
  have hdouble : ∀ {c : Number}, onDoubles Double.add a b = some c → c ≠ .double (.zero true) := by
    intro c hc
    obtain ⟨x, hx, hc⟩ := Option.bind_eq_some_iff.mp hc
    obtain ⟨y, -, hc⟩ := Option.bind_eq_some_iff.mp hc
    cases hc
    have hne : x ≠ .zero true := by
      cases a with
      | integer n => exact Double.ne_zero_of_ofInt? hx
      | double z =>
        cases hx
        exact fun hz => ha (congrArg Number.double hz)
    exact fun hsum => Double.add_ne_zero hne y (double.inj hsum)
  cases a with
  | integer m =>
    cases b with
    | integer n =>
      cases h
      exact nofun
    | double y => exact hdouble h
  | double x => exact hdouble h

/-- A sum is no `-0.0`, since it starts from 0. -/
theorem sum_ne_zero {ns : List Number} {n : Number} (h : sum ns = some n) :
    n ≠ .double (.zero true) := by
  have hstart : Number.integer 0 ≠ .double (.zero true) := nofun
  unfold sum at h
  generalize Number.integer 0 = start at h hstart
  -- The invariant is that the sum so far is not the negative zero, which no sum of it is.
  induction ns generalizing start with
  | nil =>
    cases h
    exact hstart
  | cons m ns ih =>
    rw [List.foldlM_cons] at h
    obtain ⟨next, hnext, h⟩ := Option.bind_eq_some_iff.mp h
    exact ih next h (add_ne_zero hstart hnext)

/-- The sum of a sum alone is this sum. -/
theorem add_zero_sum {ns : List Number} {n : Number} (h : sum ns = some n) :
    add (.integer 0) n = some n := by
  cases n with
  | integer k =>
    show some (Number.integer (0 + k)) = _
    rw [Int.zero_add]
  | double x =>
    have hx : x ≠ .zero true := fun hzero => sum_ne_zero h (congrArg Number.double hzero)
    simp only [add, onDoubles, toDouble?, Double.ofInt?_zero, Option.bind_eq_bind, Option.bind_some,
      Double.zero_add hx, pure]

theorem mul_one (n : Number) : mul (.integer 1) n = some n := by
  cases n with
  | integer k =>
    show some (Number.integer (1 * k)) = _
    rw [Int.one_mul]
  | double x =>
    simp only [mul, onDoubles, toDouble?, Double.ofInt?_one, Option.bind_eq_bind, Option.bind_some,
      Double.one_mul, pure]

end Number

/-! ## Aggregates that go on -/

def Arithmetic.operate : Arithmetic → Number → Number → Option Number
  | .add => Number.add
  | .subtract => Number.sub
  | .multiply => Number.mul
  | .divide => Number.div

namespace Aggregate

theorem foldlM_append_singleton (f : Number → Number → Option Number) (start n : Number)
    (ns : List Number) :
    (ns ++ [n]).foldlM f start = (ns.foldlM f start).bind fun m => f m n := by
  rw [List.foldlM_append]
  cases ns.foldlM f start with
  | none => rfl
  | some m =>
    show (f m n).bind some = f m n
    cases f m n <;> rfl

/-- One more value is taken in by the operation alone. -/
theorem compute_append (op : Arithmetic) {values : List Content} (hne : values ≠ [])
    (v : Content) :
    op.function.compute (values ++ [v]) =
      (op.function.compute values).bind fun n => op.operate n v.operand := by
  obtain ⟨w, ws, rfl⟩ := List.exists_cons_of_ne_nil hne
  have hmap : (w :: ws ++ [v]).map Content.operand =
      (w :: ws).map Content.operand ++ [v.operand] := List.map_append
  -- A sum and a product start before the first number, a difference and a quotient with it.
  have hall := fun f start =>
    foldlM_append_singleton f start v.operand ((w :: ws).map Content.operand)
  have hrest := fun f => foldlM_append_singleton f w.operand v.operand (ws.map Content.operand)
  cases op with
  | add =>
    show Number.sum ((w :: ws ++ [v]).map Content.operand) = _
    rw [hmap]
    exact hall Number.add (.integer 0)
  | subtract =>
    show Number.difference ((w :: ws ++ [v]).map Content.operand) = _
    rw [hmap]
    exact hrest Number.sub
  | multiply =>
    show Number.product ((w :: ws ++ [v]).map Content.operand) = _
    rw [hmap]
    exact hall Number.mul (.integer 1)
  | divide =>
    show Number.quotient ((w :: ws ++ [v]).map Content.operand) = _
    rw [hmap]
    exact hrest Number.div

/-- A result is the result of itself alone. -/
theorem compute_singleton {op : Arithmetic} {values : List Content} {n : Number}
    (h : op.function.compute values = some n) : op.function.compute [.number n] = some n := by
  cases op with
  | add =>
    show (Number.add (.integer 0) n).bind some = some n
    rw [Number.add_zero_sum h]
    rfl
  | subtract => rfl
  | multiply =>
    show (Number.mul (.integer 1) n).bind some = some n
    rw [Number.mul_one]
    rfl
  | divide => rfl

/-- Going on from a result gives what the values give together, a failed result included. -/
theorem outcome_pair {op : Arithmetic} {values : List Content} (hne : values ≠ []) (v : Content) :
    outcome (op.function.compute [outcome (op.function.compute values), v]) =
      outcome (op.function.compute (values ++ [v])) := by
  rw [compute_append op hne]
  cases h : op.function.compute values with
  | none => exact outcome_eq_nan List.mem_cons_self
  | some n =>
    have hpair := compute_append op (List.cons_ne_nil (Content.number n) []) v
    rw [compute_singleton h] at hpair
    exact congrArg outcome hpair

end Aggregate

end Spreadsheet
