import Spreadsheet.Proofs.Evaluation.Extrema

/-!
# Arguments that are no numbers

Every aggregate but the average counts an argument that comes to no number as `nan`, and a single `nan`
is enough to make the whole tree `nan`. The average leaves such an argument out. What remains it adds up
and divides by the count, just as a sum under a quotient does.
-/

namespace Spreadsheet

open Number

namespace Content

theorem operand_eq_nan_iff {c : Content} :
    c.operand = .nan ↔ c.isNumber = false ∨ c.isNaN = true := by
  cases c with
  | number n =>
    show n = .nan ↔ true = false ∨ n.isNaN = true
    rw [Number.isNaN_iff]
    simp
  | _ => exact iff_of_true rfl (.inl rfl)

theorem eq_nan_of_isNaN {c : Content} (h : c.isNaN = true) : c = .nan := by
  cases c with
  | number n => exact congrArg Content.number (Number.isNaN_iff.mp h)
  | _ => cases h

/-- What is no number can be dropped before the numbers are collected. -/
theorem filterMap_number?_filter (values : List Content) :
    (values.filter isNumber).filterMap number? = values.filterMap number? := by
  rw [List.filterMap_filter]
  apply List.filterMap_congr
  intro c _
  cases c <;> rfl

end Content

/-! ## One argument spoils all -/

namespace Grid

/-- An aggregate other than the average is `nan` at every depth if one of its arguments comes to `nan`
or to no number, wherever it stands and whatever the others come to. -/
theorem evaluate_eq_nan_of_argument (g : Grid) (depth : Int) {f : Aggregate} (hf : f ≠ .average)
    {args : List Content}
    (h : ∃ a ∈ args, (g.resolve (depth + 1) a).isNumber = false ∨
      (g.resolve (depth + 1) a).isNaN = true) :
    g.evaluate depth (.call (.aggregate f) args) = .nan := by
  by_cases hdepth : depth ≤ maxDepth
  · obtain ⟨a, ha, hvalue⟩ := h
    have hnan : Number.nan ∈ (args.map (g.resolve (depth + 1))).map Content.operand := by
      rw [← Content.operand_eq_nan_iff.mpr hvalue]
      exact List.mem_map_of_mem (List.mem_map_of_mem ha)
    rw [evaluate_aggregate hdepth]
    exact Aggregate.outcome_eq_nan_of_operand hf hnan
  · -- Beyond the greatest depth there is no need of such an argument.
    exact evaluate_of_lt (Int.not_le.mp hdepth) _ args

/-- The text in `A1` spoils the quotient, although zeros and an infinity stand behind it and the first
number has no nearest double. -/
theorem evaluate_quotient_spoiled :
    (single (.text "7")).resolve 1 (.text "A1") = .text "7" ∧
      (single (.text "7")).evaluate 0 (.call (.aggregate .divide)
        [.integer (tenPow 309), .text "A1", .integer 0, .number (.double (.infinity true)),
          .integer 0]) = .nan := by
  have hvalue : (single (.text "7")).resolve (0 + 1) (.text "A1") = .text "7" := rfl
  refine ⟨hvalue, evaluate_eq_nan_of_argument _ 0 (f := .divide) (by decide) ?_⟩
  refine ⟨.text "A1", List.mem_cons_of_mem _ List.mem_cons_self, .inl ?_⟩
  rw [hvalue]
  rfl

end Grid

/-! ## Averages -/

namespace Number

/-- The average of some numbers is the quotient of their sum and their count. -/
theorem mean_eq_bind {ns : List Number} (hne : ns ≠ []) :
    mean ns = (sum ns).bind fun total => quotient [total, .integer ns.length] := by
  have hcount : Number.isZero (.integer ns.length) = false := by
    apply decide_eq_false
    have hpos := List.length_pos_iff.mpr hne
    omega
  -- The count is no zero, so the division is that of the average.
  have hquotient : ∀ total, quotient [total, .integer ns.length] =
      ratio total (.integer ns.length) := by
    intro total
    show (div total (.integer ns.length)).bind some = _
    rw [Option.bind_fun_some]
    unfold div
    rw [hcount, if_neg Bool.false_ne_true]
  unfold mean
  rw [if_neg (by simpa using hne)]
  simp only [hquotient]
  rfl

end Number

/-- The average is the quotient of what the sum comes to and the count, even if there is no sum. -/
theorem Aggregate.outcome_mean {ns : List Number} (hne : ns ≠ []) :
    outcome (Number.mean ns) =
      outcome (Aggregate.divide.compute [outcome (Number.sum ns), .integer ns.length]) := by
  rw [Number.mean_eq_bind hne]
  cases Number.sum ns with
  | none => exact (outcome_eq_nan (f := .divide) List.mem_cons_self).symm
  | some total => rfl

namespace Grid

def numbers (g : Grid) (depth : Int) (args : List Content) : List Number :=
  (args.map (g.resolve depth)).filterMap Content.number?

theorem evaluate_average_eq {g : Grid} {depth : Int} (hdepth : depth ≤ maxDepth)
    (args : List Content) :
    g.evaluate depth (.call (.aggregate .average) args) =
      Aggregate.outcome (Number.mean (g.numbers (depth + 1) args)) :=
  evaluate_aggregate hdepth .average args

/-- Numbers come to themselves, so their sum is the same at every depth. -/
theorem evaluate_sum_numbers {g : Grid} {depth : Int} (hdepth : depth ≤ maxDepth)
    (ns : List Number) :
    g.evaluate depth (.call (.aggregate .sum) (ns.map .number)) =
      Aggregate.outcome (Number.sum ns) := by
  have hvalues : (ns.map Content.number).map (g.resolve (depth + 1)) = ns.map Content.number := by
    rw [List.map_map]
    rfl
  rw [evaluate_aggregate hdepth, hvalues]
  show Aggregate.outcome (Number.sum ((ns.map Content.number).map Content.operand)) = _
  rw [Content.map_operand_number]

/-- The average of arguments is that of the numbers among what they come to: nothing if there are none,
and else their sum divided by their count. Arguments that come to no number can be put in or taken out
anywhere, but one that comes to `nan` counts. -/
theorem evaluate_average (g : Grid) {depth : Int} (hdepth : depth ≤ maxDepth - 1)
    (args : List Content) :
    (g.numbers (depth + 1) args = [] →
      g.evaluate depth (.call (.aggregate .average) args) = .nan) ∧
    (g.numbers (depth + 1) args ≠ [] →
      g.evaluate depth (.call (.aggregate .average) args) =
        g.evaluate depth (.call (.aggregate .divide)
          [.call (.aggregate .sum) ((g.numbers (depth + 1) args).map .number),
            .integer (g.numbers (depth + 1) args).length])) ∧
    (∀ args', args'.filter (fun a => (g.resolve (depth + 1) a).isNumber) =
        args.filter (fun a => (g.resolve (depth + 1) a).isNumber) →
      g.evaluate depth (.call (.aggregate .average) args') =
        g.evaluate depth (.call (.aggregate .average) args)) ∧
    ((∃ a ∈ args, (g.resolve (depth + 1) a).isNaN = true) →
      g.evaluate depth (.call (.aggregate .average) args) = .nan) := by
  have hdepth' : depth ≤ maxDepth := by omega
  refine ⟨?_, ?_, ?_, ?_⟩
  · intro hnone
    rw [evaluate_average_eq hdepth', hnone]
    rfl
  · intro hsome
    have hnext : depth + 1 ≤ maxDepth := by omega
    have hsum := evaluate_sum_numbers (g := g) hnext (g.numbers (depth + 1) args)
    rw [evaluate_average_eq hdepth', Aggregate.outcome_mean hsome, ← hsum,
      evaluate_aggregate hdepth']
    rfl
  · intro args' hsame
    have hnumbers : ∀ as : List Content, g.numbers (depth + 1) as =
        g.numbers (depth + 1) (as.filter fun a => (g.resolve (depth + 1) a).isNumber) := by
      intro as
      -- The lemma drops values and not arguments, so the filter has to go behind `map` first.
      unfold numbers
      rw [← Content.filterMap_number?_filter, List.filter_map]
      rfl
    rw [evaluate_average_eq hdepth', evaluate_average_eq hdepth', hnumbers, hsame, ← hnumbers]
  · -- The `nan` is a number, so it is in the sum.
    rintro ⟨a, ha, hnan⟩
    rw [evaluate_aggregate hdepth']
    apply Aggregate.outcome_eq_nan
    rw [← Content.eq_nan_of_isNaN hnan]
    exact List.mem_map_of_mem ha

/-- Neither number has a nearest double, but their sum is 2, and so the average of the two is 1. The
truth value and the text in `A1` are left out. -/
theorem evaluate_average_beyond :
    (5 : Int) ≤ maxDepth - 1 ∧
      (single (.text "7")).evaluate 5 (.call (.aggregate .average)
        [.integer (tenPow 309), .bool true, .integer (2 - tenPow 309), .text "A1"]) =
        (single (.text "7")).evaluate 5 (.call (.aggregate .divide)
          [.call (.aggregate .sum) [.integer (tenPow 309), .integer (2 - tenPow 309)],
            .integer 2]) ∧
      (single (.text "7")).evaluate 5 (.call (.aggregate .average)
        [.integer (tenPow 309), .bool true, .integer (2 - tenPow 309), .text "A1"]) =
          .number (.double (.finite false .one)) := by
  have hdepth : (5 : Int) ≤ maxDepth - 1 := by decide
  have hnumbers : (single (.text "7")).numbers (5 + 1)
      [.integer (tenPow 309), .bool true, .integer (2 - tenPow 309), .text "A1"] =
        [.integer (tenPow 309), .integer (2 - tenPow 309)] := rfl
  have hquotient := (evaluate_average (single (.text "7")) hdepth
    [.integer (tenPow 309), .bool true, .integer (2 - tenPow 309), .text "A1"]).2.1
  rw [hnumbers] at hquotient
  have hmean : Number.mean [.integer (tenPow 309), .integer (2 - tenPow 309)] =
      some (.double (.finite false .one)) := by decide +kernel
  refine ⟨hdepth, hquotient (List.cons_ne_nil _ _), ?_⟩
  rw [evaluate_average_eq (by decide), hnumbers, hmean]
  rfl

end Grid

end Spreadsheet
