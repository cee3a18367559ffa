import Mathlib.Data.List.Basic
import Spreadsheet.Proofs.Evaluation.BigStep
import Spreadsheet.Proofs.Number.NaN

/-!
# What a function makes of its arguments

A function works out some of its arguments and sees no more of them than what they come to. Only a
literal also sees whether its argument is a tree. A function that comes to a number other than `nan`,
or to no number, has seen no `nan`, unless it is a comparison.
-/

namespace Spreadsheet

theorem name_of_functionOf? {name : Json} {f : Function} (h : functionOf? name = some f) :
    name = .text f.name := by
  cases name with
  | text s => exact congrArg Json.text (Function.name_of_ofName? h).symm
  | _ => cases h

theorem Grid.resolveWith_of_isFormula {c : Content} (h : c.isFormula = true) (g : Grid)
    (eval : Evaluator) : g.resolveWith eval c = c.valueWith eval := by
  cases c with
  | formula name args => rfl
  | _ => cases h

/-- What counts as `nan` among the values makes every aggregate `nan` that counts all of them. -/
theorem Aggregate.compute_eq_nan_of_operand {f : Aggregate} (hf : f ≠ .average)
    {values : List Content} {n : Number} (h : f.compute values = some n)
    (hnan : .nan ∈ values.map Content.operand) : n = .nan := by
  cases f with
  | sum => exact Number.sum_eq_nan h hnan
  | subtract => exact Number.difference_eq_nan h hnan
  | multiply => exact Number.product_eq_nan h hnan
  | divide => exact Number.quotient_eq_nan h hnan
  | average => exact absurd rfl hf
  | maximum => exact Number.extremum_eq_nan h hnan
  | minimum => exact Number.extremum_eq_nan h hnan

theorem Aggregate.compute_eq_nan {f : Aggregate} {values : List Content} {n : Number}
    (h : f.compute values = some n) (hnan : .nan ∈ values) : n = .nan := by
  by_cases hf : f = .average
  · -- The average leaves out what is no number, but `nan` is one.
    subst hf
    exact Number.mean_eq_nan h (List.mem_filterMap.mpr ⟨.nan, hnan, rfl⟩)
  · exact compute_eq_nan_of_operand hf h (List.mem_map_of_mem (f := Content.operand) hnan)

/-- A computation that fails comes to `nan` just as one that results in it. -/
theorem Aggregate.outcome_eq_nan_of_forall {result : Option Number}
    (h : ∀ n, result = some n → n = .nan) : outcome result = .nan := by
  cases result with
  | none => rfl
  | some n =>
    rw [h n rfl]
    rfl

/-- One argument that comes to `nan` makes the tree of an aggregate `nan`. -/
theorem Aggregate.outcome_eq_nan {f : Aggregate} {values : List Content} (hnan : .nan ∈ values) :
    outcome (f.compute values) = .nan :=
  outcome_eq_nan_of_forall fun _ h => compute_eq_nan h hnan

/-- One argument that counts as `nan` does the same, unless the aggregate leaves it out. -/
theorem Aggregate.outcome_eq_nan_of_operand {f : Aggregate} (hf : f ≠ .average)
    {values : List Content} (hnan : .nan ∈ values.map Content.operand) :
    outcome (f.compute values) = .nan :=
  outcome_eq_nan_of_forall fun _ h => compute_eq_nan_of_operand hf h hnan

/-- The arguments that an aggregate works out, behind those with the values `seen`. A running one works
out none behind the one at which it fails. -/
def Aggregate.taken (resolve : Content → Content) (f : Aggregate) :
    (seen : List Content) → List Content → List Content
  | _, [] => []
  | seen, a :: args =>
    if f.isRunning && (f.compute (seen ++ [resolve a])).isNone then [a]
    else a :: taken resolve f (seen ++ [resolve a]) args

theorem Aggregate.mem_of_taken {resolve : Content → Content} {f : Aggregate}
    {seen args : List Content} {a : Content} (h : a ∈ f.taken resolve seen args) : a ∈ args := by
  induction args generalizing seen with
  | nil => cases h
  | cons arg args ih =>
    unfold taken at h
    split at h
    · obtain rfl := List.mem_singleton.mp h
      exact List.mem_cons_self
    · rcases List.mem_cons.mp h with rfl | hmore
      · exact List.mem_cons_self
      · exact List.mem_cons_of_mem arg (ih hmore)

/-- Where a running aggregate fails, it fails whatever the arguments behind come to. -/
theorem Aggregate.compute_eq_of_taken {resolve resolve' : Content → Content} {f : Aggregate}
    {seen args : List Content} (h : ∀ a ∈ f.taken resolve seen args, resolve' a = resolve a) :
    f.compute (seen ++ args.map resolve') = f.compute (seen ++ args.map resolve) := by
  -- The values so far are the same on both sides. They grow until there are no more arguments or
  -- the aggregate fails on them.
  induction args generalizing seen with
  | nil => rfl
  | cons a args ih =>
    have happend : ∀ value : Content → Content,
        seen ++ (a :: args).map value = seen ++ [value a] ++ args.map value := by
      intro value
      simp
    rw [happend, happend]
    unfold taken at h
    split at h
    · rename_i hfail
      obtain ⟨hrunning, hnone⟩ := Bool.and_eq_true_iff.mp hfail
      rw [h a List.mem_cons_self,
        compute_append_eq_none hrunning (Option.isNone_iff_eq_none.mp hnone),
        compute_append_eq_none hrunning (Option.isNone_iff_eq_none.mp hnone)]
    · obtain ⟨ha, hargs⟩ := List.forall_mem_cons.mp h
      rw [ha]
      exact ih hargs

namespace Function

/-! ## Other arguments -/

/-- A function sees no more of its arguments than what they come to, unless it is a literal, which
does not work out a tree. -/
theorem apply_congr {resolve resolve' : Content → Content} {args args' : List Content}
    (f : Function) (hvalues : args'.map resolve' = args.map resolve)
    (hformula : f = .literal → args'.map Content.isFormula = args.map Content.isFormula) :
    f.apply resolve' args' = f.apply resolve args := by
  have hlength : args'.length = args.length := by
    simpa using congrArg List.length hvalues
  cases f with
  | aggregate f => simp only [apply, hvalues]
  | choice =>
    by_cases hthree : args.length = 3
    · obtain ⟨condition, consequent, alternative, rfl⟩ := List.length_eq_three.mp hthree
      obtain ⟨condition', consequent', alternative', rfl⟩ :=
        List.length_eq_three.mp (hlength.trans hthree)
      simp only [List.map_cons, List.map_nil, List.cons.injEq, and_true] at hvalues
      obtain ⟨hcondition, hconsequent, halternative⟩ := hvalues
      simp only [apply, hcondition, hconsequent, halternative]
    · rw [apply_choice_eq_error hthree, apply_choice_eq_error (hlength ▸ hthree), hlength]
  | comparison f =>
    by_cases htwo : args.length = 2
    · obtain ⟨left, right, rfl⟩ := List.length_eq_two.mp htwo
      obtain ⟨left', right', rfl⟩ := List.length_eq_two.mp (hlength.trans htwo)
      simp only [List.map_cons, List.map_nil, List.cons.injEq, and_true] at hvalues
      obtain ⟨hleft, hright⟩ := hvalues
      simp only [apply, hleft, hright]
    · rw [apply_comparison_eq_error htwo, apply_comparison_eq_error (hlength ▸ htwo), hlength]
  | literal =>
    have hformulas := hformula rfl
    cases args with
    | nil =>
      obtain rfl := List.eq_nil_of_length_eq_zero hlength
      rfl
    | cons value more =>
      obtain ⟨value', more', rfl⟩ := List.exists_cons_of_length_eq_add_one hlength
      simp only [List.map_cons, List.cons.injEq] at hvalues hformulas
      simp only [apply, hvalues.1, hformulas.1]

/-! ## Arguments that are worked out -/

/-- The arguments that a function works out. A choice works out the branch that it chooses. -/
def consulted (resolve : Content → Content) : Function → List Content → List Content
  | .aggregate f, args => f.taken resolve [] args
  | .choice, args =>
    match args with
    | [condition, consequent, alternative] =>
      match resolve condition with
      | .bool true => [condition, consequent]
      | .bool false => [condition, alternative]
      | _ => [condition]
    | _ => []
  | .comparison _, args =>
    match args with
    | [left, right] => [left, right]
    | _ => []
  | .literal, args =>
    match args with
    | [] => []
    | value :: _ => if value.isFormula then [] else [value]

/-- What the other arguments come to makes no difference. -/
theorem apply_eq_of_consulted {resolve resolve' : Content → Content} {f : Function}
    {args : List Content} (h : ∀ a ∈ f.consulted resolve args, resolve' a = resolve a) :
    f.apply resolve' args = f.apply resolve args := by
  cases f with
  | aggregate f =>
    have hcompute : f.compute (args.map resolve') = f.compute (args.map resolve) :=
      Aggregate.compute_eq_of_taken h
    simp only [apply, hcompute]
  | choice =>
    by_cases hthree : args.length = 3
    · obtain ⟨condition, consequent, alternative, rfl⟩ := List.length_eq_three.mp hthree
      simp only [consulted] at h
      -- The condition is worked out first, and it says which branch is.
      split at h
      · rename_i htrue
        obtain ⟨hcondition, hconsequent⟩ : resolve' condition = resolve condition ∧
            resolve' consequent = resolve consequent := by simpa using h
        simp only [apply, hcondition, htrue, hconsequent]
      · rename_i hfalse
        obtain ⟨hcondition, halternative⟩ : resolve' condition = resolve condition ∧
            resolve' alternative = resolve alternative := by simpa using h
        simp only [apply, hcondition, hfalse, halternative]
      · rename_i htrue hfalse
        have hcondition : resolve' condition = resolve condition := by simpa using h
        simp only [apply, hcondition]
    · rw [apply_choice_eq_error hthree, apply_choice_eq_error hthree]
  | comparison f =>
    by_cases htwo : args.length = 2
    · obtain ⟨left, right, rfl⟩ := List.length_eq_two.mp htwo
      obtain ⟨hleft, hright⟩ : resolve' left = resolve left ∧ resolve' right = resolve right := by
        simpa [consulted] using h
      simp only [apply, hleft, hright]
    · rw [apply_comparison_eq_error htwo, apply_comparison_eq_error htwo]
  | literal =>
    cases args with
    | nil => rfl
    | cons value more =>
      simp only [apply]
      split
      · rfl
      · rename_i hvalue
        have heq : resolve' value = resolve value := by simpa [consulted, hvalue] using h
        rw [heq]

end Function

end Spreadsheet
