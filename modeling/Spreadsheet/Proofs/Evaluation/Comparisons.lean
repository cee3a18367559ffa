import Spreadsheet.Proofs.Evaluation.Depth
import Spreadsheet.Proofs.Number.Values

/-!
# What comparisons say

A comparison of arguments that come to numbers is a truth value: whether the exact values of the numbers
stand in the relation. So the six comparisons agree with each other and with one linear order, whatever
mix of whole numbers and doubles they are applied to. With `nan` only a difference is true.
-/

namespace Spreadsheet

open Number

/-! ## Truth of comparisons -/

namespace Comparison

theorem holds_none (f : Comparison) : f.holds none = decide (f = .notEqual) := by
  cases f <;> rfl

/-- Exactly one of three comparisons is true of numbers in some order. -/
theorem existsUnique_holds (order : Ordering) :
    ∃! f, f ∈ [less, equal, greater] ∧ f.holds (some order) = true := by
  cases order with
  | lt => exact ⟨less, ⟨by simp, rfl⟩, fun f => by cases f <;> decide⟩
  | eq => exact ⟨equal, ⟨by simp, rfl⟩, fun f => by cases f <;> decide⟩
  | gt => exact ⟨greater, ⟨by simp, rfl⟩, fun f => by cases f <;> decide⟩

/-- A comparison other than a difference is true of two numbers if both have a value and the values
stand in the relation. -/
theorem holds_compare?_iff {f : Comparison} (hf : f ≠ .notEqual) {a b : Number} :
    f.holds (a.compare? b) = true ↔
      ∃ x y, a.value? = some x ∧ b.value? = some y ∧ f.Relates x y := by
  constructor
  · intro h
    have hvalues : a.isNaN = false ∧ b.isNaN = false := by
      rw [← Bool.or_eq_false_iff]
      -- Without an order only a difference is true.
      by_contra hnan
      rw [Bool.not_eq_false, Bool.or_eq_true] at hnan
      rw [compare?_of_isNaN hnan, holds_none, decide_eq_true_eq] at h
      exact hf h
    obtain ⟨x, hx⟩ := exists_value_of_isNaN hvalues.1
    obtain ⟨y, hy⟩ := exists_value_of_isNaN hvalues.2
    rw [compare?_of_values hx hy] at h
    exact ⟨x, y, hx, hy, (f.holds_cmp_iff x y).mp h⟩
  · rintro ⟨x, y, hx, hy, h⟩
    rw [compare?_of_values hx hy]
    exact (f.holds_cmp_iff x y).mpr h

/-- A comparison is true of two numbers if the opposite one is true of them the other way round. -/
theorem holds_swap (f f' : Comparison) (hf : f ≠ .notEqual) (hf' : f' ≠ .notEqual)
    (h : ∀ x y : Value, f.Relates x y ↔ f'.Relates y x) (a b : Number) :
    f.holds (a.compare? b) = f'.holds (b.compare? a) := by
  rw [Bool.eq_iff_iff, holds_compare?_iff hf, holds_compare?_iff hf']
  constructor
  · rintro ⟨x, y, hx, hy, hrelates⟩
    exact ⟨y, x, hy, hx, (h x y).mp hrelates⟩
  · rintro ⟨y, x, hy, hx, hrelates⟩
    exact ⟨x, y, hx, hy, (h x y).mpr hrelates⟩

theorem holds_trans {f : Comparison} (hf : f ∈ [less, lessOrEqual, equal]) {a b c : Number}
    (h : f.holds (a.compare? b) = true) (h' : f.holds (b.compare? c) = true) :
    f.holds (a.compare? c) = true := by
  have hne : f ≠ .notEqual := by
    rintro rfl
    simp at hf
  rw [holds_compare?_iff hne] at h h' ⊢
  obtain ⟨x, y, hx, hy, hxy⟩ := h
  obtain ⟨y', z, hy', hz, hyz⟩ := h'
  -- The number in the middle has one value, so the two relations can be put together.
  obtain rfl := Option.some.inj (hy.symm.trans hy')
  refine ⟨x, z, hx, hz, ?_⟩
  simp only [List.mem_cons, List.not_mem_nil, or_false] at hf
  rcases hf with rfl | rfl | rfl
  · exact lt_trans hxy hyz
  · exact le_trans hxy hyz
  · exact Eq.trans hxy hyz

end Comparison

/-! ## Comparisons of arguments -/

namespace Grid

def compared (g : Grid) (depth : Int) (f : Comparison) (a b : Content) : Content :=
  g.evaluate depth (.call (.comparison f) [a, b])

theorem compared_eq {g : Grid} {depth : Int} (hdepth : depth ≤ maxDepth) {a b : Content}
    {m n : Number} (ha : g.resolve (depth + 1) a = .number m)
    (hb : g.resolve (depth + 1) b = .number n) (f : Comparison) :
    g.compared depth f a b = .bool (f.holds (m.compare? n)) := by
  apply evaluate_call (f := .comparison f) hdepth
  show (f.compute (g.resolve (depth + 1) a) (g.resolve (depth + 1) b)).map Content.bool = _
  rw [ha, hb]
  rfl

/-- The comparisons of arguments that come to numbers are truth values of one linear order, that of the
exact values. Turned round they are those of the opposite relations, a difference denies equality, one
of less, equal and greater is true and no other, and what is less or equal is either. With `nan` nothing
is true but a difference. -/
theorem compared_numbers (g : Grid) {depth : Int} (hdepth : depth ≤ maxDepth) {a b c : Content}
    {k m n : Number} (ha : g.resolve (depth + 1) a = .number k)
    (hb : g.resolve (depth + 1) b = .number m) (hc : g.resolve (depth + 1) c = .number n) :
    g.compared depth .less a b = g.compared depth .greater b a ∧
    g.compared depth .lessOrEqual a b = g.compared depth .greaterOrEqual b a ∧
    g.compared depth .equal a b = g.compared depth .equal b a ∧
    (∃ isLess isEqual, g.compared depth .less a b = .bool isLess ∧
      g.compared depth .equal a b = .bool isEqual ∧
      g.compared depth .notEqual a b = .bool (!isEqual) ∧
      g.compared depth .lessOrEqual a b = .bool (isLess || isEqual)) ∧
    (k.isNaN = false → m.isNaN = false →
      ∃! f, f ∈ [.less, .equal, .greater] ∧ g.compared depth f a b = .bool true) ∧
    (∀ f ∈ [Comparison.less, .lessOrEqual, .equal], g.compared depth f a b = .bool true →
      g.compared depth f b c = .bool true → g.compared depth f a c = .bool true) ∧
    (k.isNaN = true ∨ m.isNaN = true →
      ∀ f, g.compared depth f a b = .bool (decide (f = .notEqual))) ∧
    ∀ x y, k.value? = some x → m.value? = some y →
      ∀ f, ∃ truth, g.compared depth f a b = .bool truth ∧ (truth = true ↔ f.Relates x y) := by
  have hab := compared_eq hdepth ha hb
  have hba := compared_eq hdepth hb ha
  have hbc := compared_eq hdepth hb hc
  have hac := compared_eq hdepth ha hc
  -- All of these are truth values, so what remains is said of the orders of pairs of numbers.
  simp only [hab, hba, hbc, hac, Content.bool.injEq]
  refine ⟨?_, ?_, ?_, ?_, ?_, ?_, ?_, ?_⟩
  · exact Comparison.holds_swap .less .greater nofun nofun (fun _ _ => Iff.rfl) k m
  · exact Comparison.holds_swap .lessOrEqual .greaterOrEqual nofun nofun (fun _ _ => Iff.rfl) k m
  · exact Comparison.holds_swap .equal .equal nofun nofun (fun _ _ => eq_comm) k m
  · refine ⟨_, _, rfl, rfl, ?_, rfl⟩
    -- No order, or one of three.
    rcases k.compare? m with _ | _ | _ | _ <;> rfl
  · intro hk hm
    obtain ⟨x, hx⟩ := exists_value_of_isNaN hk
    obtain ⟨y, hy⟩ := exists_value_of_isNaN hm
    rw [compare?_of_values hx hy]
    exact Comparison.existsUnique_holds _
  · exact fun f hf => Comparison.holds_trans hf
  · intro hnan f
    rw [compare?_of_isNaN hnan, Comparison.holds_none]
  · intro x y hx hy f
    rw [compare?_of_values hx hy]
    exact ⟨_, rfl, f.holds_cmp_iff x y⟩

def neighbours : Grid :=
  ⟨[[.integer 9007199254740992, .number (.double (.ofBits 0x4340000000000000)),
    .integer 9007199254740993]]⟩

/-- The double equals the first whole number, but the second one is not rounded to it. -/
theorem compared_neighbours :
    neighbours.compared 10 .equal (.text "A1") (.text "B1") = .bool true ∧
      neighbours.compared 10 .less (.text "B1") (.text "C1") = .bool true ∧
      neighbours.compared 10 .equal (.text "B1") (.text "C1") ≠ .bool true ∧
      neighbours.compared 10 .lessOrEqual (.text "A1") (.text "C1") = .bool true := by
  have hdepth : (10 : Int) ≤ maxDepth := by decide
  have ha : neighbours.resolve (10 + 1) (.text "A1") = .number (.integer 9007199254740992) := rfl
  have hb : neighbours.resolve (10 + 1) (.text "B1") =
      .number (.double (.ofBits 0x4340000000000000)) := rfl
  have hc : neighbours.resolve (10 + 1) (.text "C1") = .number (.integer 9007199254740993) := rfl
  have hequal : Number.compare? (.integer 9007199254740992)
      (.double (.ofBits 0x4340000000000000)) = some .eq := by decide +kernel
  have hless : Number.compare? (.double (.ofBits 0x4340000000000000))
      (.integer 9007199254740993) = some .lt := by decide +kernel
  have hab : ∀ f, neighbours.compared 10 f (.text "A1") (.text "B1") = .bool (f.holds (some .eq)) :=
    fun f => hequal ▸ compared_eq hdepth ha hb f
  have hbc : ∀ f, neighbours.compared 10 f (.text "B1") (.text "C1") = .bool (f.holds (some .lt)) :=
    fun f => hless ▸ compared_eq hdepth hb hc f
  obtain ⟨-, -, -, -, hunique, -⟩ := compared_numbers neighbours hdepth hb hc ha
  obtain ⟨-, -, -, -, -, htrans, -⟩ := compared_numbers neighbours hdepth ha hb hc
  refine ⟨hab .equal, hbc .less, ?_, ?_⟩
  · -- `less` is true of `B1` and `C1` already.
    intro hbad
    have hsame := (hunique (by decide +kernel) rfl).unique ⟨by simp, hbc .less⟩ ⟨by simp, hbad⟩
    cases hsame
  · exact htrans .lessOrEqual (by simp) (hab .lessOrEqual) (hbc .lessOrEqual)

end Grid

end Spreadsheet
