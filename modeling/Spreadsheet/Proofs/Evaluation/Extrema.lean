import Spreadsheet.Proofs.Evaluation.Depth
import Spreadsheet.Proofs.Number.Order

/-!
# The greatest and the least argument

The maximum of arguments that come to numbers other than `nan` is one of these numbers, and none of them
lies beyond it. In another order the arguments come to an equal maximum, though it may be a whole number
here and a double there. The same holds of the minimum. A whole number without a nearest double among
the arguments makes either of them `nan`, even if it would not be chosen.
-/

namespace Spreadsheet

open Number

inductive Aggregate.Chooses : Aggregate → Comparison → Prop
  | greatest : Chooses .maximum .greaterOrEqual
  | least : Chooses .minimum .lessOrEqual

/-- What is chosen is the best number in one of the two directions. -/
theorem Aggregate.Chooses.exists_wanted {f : Aggregate} {relation : Comparison}
    (h : f.Chooses relation) :
    ∃ wanted empty, wanted ≠ .eq ∧
      (∀ values, f.compute values = extremum wanted empty (values.map Content.operand)) ∧
      ∀ a b : Number, Reaches wanted a b → relation.holds (a.compare? b) = true := by
  cases h with
  | greatest =>
    refine ⟨.gt, _, nofun, fun _ => rfl, ?_⟩
    rintro a b ⟨p, q, hp, hq, horder | horder⟩ <;> rw [compare?_of_places hp hq, horder] <;> rfl
  | least =>
    refine ⟨.lt, _, nofun, fun _ => rfl, ?_⟩
    rintro a b ⟨p, q, hp, hq, horder | horder⟩ <;> rw [compare?_of_places hp hq, horder] <;> rfl

theorem Content.map_operand_number (ns : List Number) :
    (ns.map Content.number).map Content.operand = ns := by
  rw [List.map_map]
  exact List.map_id ns

namespace Grid

/-- Arguments that come to numbers other than `nan` have an extremum among these numbers, and in every
order an equal one, if all of them have a nearest double. If one of them has none, there is no
extremum. -/
theorem evaluate_extremum (g : Grid) {depth : Int} (hdepth : depth ≤ maxDepth) {f : Aggregate}
    {relation : Comparison} (hf : f.Chooses relation) {args : List Content} {ns : List Number}
    (hne : args ≠ []) (hvalues : args.map (g.resolve (depth + 1)) = ns.map Content.number)
    (hnan : ∀ n ∈ ns, n.isNaN = false) :
    ((∀ n ∈ ns, n.HasDouble) →
      ∃ n ∈ ns, g.evaluate depth (.call (.aggregate f) args) = .number n ∧
        (∀ m ∈ ns, relation.holds (n.compare? m) = true) ∧
        ∀ args', args'.Perm args →
          ∃ m, g.evaluate depth (.call (.aggregate f) args') = .number m ∧
            Comparison.equal.holds (n.compare? m) = true) ∧
    ((∃ n ∈ ns, ¬ n.HasDouble) → g.evaluate depth (.call (.aggregate f) args) = .nan) := by
  obtain ⟨wanted, empty, hwanted, hcompute, hholds⟩ := hf.exists_wanted
  have hoperands : (args.map (g.resolve (depth + 1))).map Content.operand = ns := by
    rw [hvalues, Content.map_operand_number]
  have hevaluate : ∀ args', g.evaluate depth (.call (.aggregate f) args') =
      Aggregate.outcome
        (extremum wanted empty ((args'.map (g.resolve (depth + 1))).map Content.operand)) := by
    intro args'
    rw [evaluate_aggregate hdepth, hcompute]
  have hne' : ns ≠ [] := by
    rintro rfl
    exact hne (List.map_eq_nil_iff.mp hvalues)
  constructor
  · intro hdoubles
    obtain ⟨n, hn, hbest⟩ := exists_extremum hwanted empty hne' hnan hdoubles
    refine ⟨n, hbest.mem, ?_, fun m hm => hholds n m (hbest.reaches m hm), ?_⟩
    · rw [hevaluate, hoperands, hn]
      rfl
    · intro args' hperm
      have hoperands' := (hperm.map (g.resolve (depth + 1))).map Content.operand
      rw [hoperands] at hoperands'
      -- The same numbers in another order meet the same conditions.
      obtain ⟨m, hm, hbest'⟩ := exists_extremum hwanted empty
        (fun hnil => hne' (List.nil_perm.mp (hnil ▸ hoperands')))
        (fun k hk => hnan k (hoperands'.mem_iff.mp hk))
        (fun k hk => hdoubles k (hoperands'.mem_iff.mp hk))
      refine ⟨m, ?_, ?_⟩
      · rw [hevaluate, hm]
        rfl
      · rw [hbest.compare?_eq hwanted hbest' hoperands'.symm]
        rfl
  · intro hbeyond
    rw [hevaluate, hoperands, extremum_eq_none wanted empty hnan hbeyond]
    rfl

def single (c : Content) : Grid := ⟨[[c]]⟩

/-- The whole number next to `2 ^ 53` is greater than it, although both have the same nearest double. -/
theorem evaluate_maximum_neighbours :
    (single (.integer 9007199254740992)).evaluate 10 (.call (.aggregate .maximum)
      [.text "$A1", .number (.double (.infinity true)), .integer 9007199254740993]) =
        .integer 9007199254740993 := by
  have hdepth : (10 : Int) ≤ maxDepth := by decide
  have hvalues : [Content.text "$A1", .number (.double (.infinity true)),
      .integer 9007199254740993].map ((single (.integer 9007199254740992)).resolve (10 + 1)) =
      [Number.integer 9007199254740992, .double (.infinity true),
        .integer 9007199254740993].map Content.number := rfl
  obtain ⟨n, hn, hvalue, hreaches, -⟩ :=
    (evaluate_extremum _ hdepth .greatest (by simp) hvalues (by decide)).1 (by decide +kernel)
  have hgreatest : ∀ n ∈ [Number.integer 9007199254740992, .double (.infinity true),
      .integer 9007199254740993],
      Comparison.greaterOrEqual.holds (n.compare? (.integer 9007199254740993)) = true →
        n = .integer 9007199254740993 := by decide +kernel
  rw [hvalue, hgreatest n hn (hreaches _ (by simp))]
  rfl

/-- A number of 310 digits is no `nan`, and yet there is no maximum of it and 1. -/
theorem evaluate_maximum_beyond :
    ¬ ∀ (g : Grid) (depth : Int) (args : List Content) (ns : List Number), depth ≤ maxDepth →
      args ≠ [] → args.map (g.resolve (depth + 1)) = ns.map Content.number →
      (∀ n ∈ ns, n.isNaN = false) →
      ∃ n ∈ ns, g.evaluate depth (.call (.aggregate .maximum) args) = .number n := by
  intro h
  obtain ⟨n, hn, hvalue⟩ := h ⟨[]⟩ 0 [.integer (tenPow 309), .integer 1]
    [.integer (tenPow 309), .integer 1] (by decide) (by simp) rfl (by decide)
  have hnone : Number.maximum [.integer (tenPow 309), .integer 1] = none :=
    extremum_eq_none .gt _ (by decide) ⟨_, List.mem_cons_self, by decide +kernel⟩
  have hnan : (⟨[]⟩ : Grid).evaluate 0 (.call (.aggregate .maximum)
      [.integer (tenPow 309), .integer 1]) = Aggregate.outcome
        (Number.maximum [.integer (tenPow 309), .integer 1]) :=
    evaluate_aggregate (by decide) .maximum _
  rw [hnone, hvalue] at hnan
  have hn' : n = .nan := Content.number.inj hnan
  exact absurd (hn' ▸ hn) (by decide)

end Grid

end Spreadsheet
