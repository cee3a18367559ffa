import Mathlib.Data.Int.Order.Basic
import Spreadsheet.Evaluation

/-!
# Evaluation without a bound

The rules by which a tree has a value, with nothing said about depth. A derivation has a height: the
number of trees that lie inside one another on the longest way that is gone. A tree among the
arguments of another adds one, and so does the tree in a cell that an argument refers to. What is not
looked at has no part in it, such as the branch of a choice that is not chosen and the arguments
behind the one at which a sum fails.

Evaluation at a depth gives the value of every derivation whose height fits under the greatest depth.
-/

namespace Spreadsheet

open Text

namespace Aggregate

def outcome : Option Number → Content
  | some n => .number n
  | none => .nan

theorem foldlM_append_eq_none {op : Number → Number → Option Number} {start : Number}
    {ns : List Number} (h : ns.foldlM op start = none) (ms : List Number) :
    (ns ++ ms).foldlM op start = none := by
  rw [List.foldlM_append, h]
  rfl

/-- Numbers on which a running aggregate fails make it fail with more numbers behind them. -/
theorem compute_append_eq_none {f : Aggregate} (hf : f.isRunning = true) {vs : List Content}
    (h : f.compute vs = none) (ws : List Content) : f.compute (vs ++ ws) = none := by
  -- A fold that has failed stays failed. The first number of a difference starts the fold.
  cases f with
  | sum =>
    simp only [compute, Number.sum, List.map_append] at h ⊢
    exact foldlM_append_eq_none h _
  | multiply =>
    simp only [compute, Number.product, List.map_append] at h ⊢
    exact foldlM_append_eq_none h _
  | subtract =>
    cases vs with
    | nil => cases h
    | cons v vs =>
      simp only [compute, List.map_append, List.map_cons, List.cons_append] at h ⊢
      exact foldlM_append_eq_none h _
  | divide =>
    cases vs with
    | nil => cases h
    | cons v vs =>
      simp only [compute, List.map_append, List.map_cons, List.cons_append] at h ⊢
      exact foldlM_append_eq_none h _
  | average => cases hf
  | maximum => cases hf
  | minimum => cases hf

end Aggregate

theorem Comparison.compute_eq_error {f : Comparison} {v w : Content}
    (h : (v.isNumber && w.isNumber) = false) : ∃ e, f.compute v w = .error e := by
  cases v with
  | number m =>
    cases w with
    | number n => cases h
    | _ => exact ⟨_, rfl⟩
  | _ => exact ⟨_, rfl⟩

theorem Function.apply_choice_eq_error {resolve : Content → Content} {args : List Content}
    (h : args.length ≠ 3) :
    Function.choice.apply resolve args = .error (.wrongArity .choice 3 args.length) := by
  simp only [apply]
  split
  · exact absurd rfl h
  · rfl

theorem Function.apply_comparison_eq_error {f : Comparison} {resolve : Content → Content}
    {args : List Content} (h : args.length ≠ 2) :
    (Function.comparison f).apply resolve args =
      .error (.wrongArity (.comparison f) 2 args.length) := by
  simp only [apply]
  split
  · exact absurd rfl h
  · rfl

theorem Content.valueWith_of_isFormula {c : Content} (h : c.isFormula = false) (eval : Evaluator) :
    c.valueWith eval = c := by
  cases c with
  | formula name args => cases h
  | _ => rfl

theorem ofBooleanWord?_of_unquoted? {s : String} {inner : List Char}
    (h : unquoted? s.toList = some inner) : ofBooleanWord? s = none := by
  rw [ofBooleanWord?_eq_none_iff]
  rintro (_ | _) rfl
  · exact absurd h (by simp [booleanWord, unquoted?, isMark])
  · exact absurd h (by simp [booleanWord, unquoted?, isMark])

namespace Grid

mutual

/-- The tree with a name and arguments has a value, by a derivation of a height. -/
inductive Yields (g : Grid) : Json → List Content → Content → Nat → Prop
  | unknown {name : Json} {args : List Content} :
      (∀ f : Function, name ≠ .text f.name) → Yields g name args .nan 1
  | aggregate {args vs : List Content} {h : Nat} (f : Aggregate) :
      ResolvesAll g args vs h → Yields g (.text f.name) args (Aggregate.outcome (f.compute vs)) (h + 1)
  | failed {args more vs : List Content} {h : Nat} (f : Aggregate) :
      f.isRunning = true → ResolvesAll g args vs h → f.compute vs = none →
      Yields g (.text f.name) (args ++ more) .nan (h + 1)
  | chosen {c a b v : Content} {h k : Nat} :
      Resolves g c (.bool true) h → Resolves g a v k →
      Yields g (.text Function.choice.name) [c, a, b] v (max h k + 1)
  | otherwise {c a b v : Content} {h k : Nat} :
      Resolves g c (.bool false) h → Resolves g b v k →
      Yields g (.text Function.choice.name) [c, a, b] v (max h k + 1)
  | undecided {c a b v : Content} {h : Nat} :
      Resolves g c v h → (∀ value, v ≠ .bool value) →
      Yields g (.text Function.choice.name) [c, a, b] .nan (h + 1)
  | choiceArity {args : List Content} :
      args.length ≠ 3 → Yields g (.text Function.choice.name) args .nan 1
  | compared {a b : Content} {m n : Number} {h k : Nat} (f : Comparison) :
      Resolves g a (.number m) h → Resolves g b (.number n) k →
      Yields g (.text f.name) [a, b] (.bool (f.holds (m.compare? n))) (max h k + 1)
  | incomparable {a b v w : Content} {h k : Nat} (f : Comparison) :
      Resolves g a v h → Resolves g b w k → (v.isNumber && w.isNumber) = false →
      Yields g (.text f.name) [a, b] .nan (max h k + 1)
  | comparisonArity {args : List Content} (f : Comparison) :
      args.length ≠ 2 → Yields g (.text f.name) args .nan 1
  | literal {a v : Content} {more : List Content} {h : Nat} :
      a.isFormula = false → Resolves g a v h →
      Yields g (.text Function.literal.name) (a :: more) v (h + 1)
  | literalTree {a : Content} {more : List Content} :
      a.isFormula = true → Yields g (.text Function.literal.name) (a :: more) .nan 1
  | literalNone : Yields g (.text Function.literal.name) [] .nan 1

inductive Resolves (g : Grid) : Content → Content → Nat → Prop
  | tree {name : Json} {args : List Content} {v : Content} {h : Nat} :
      Yields g name args v h → Resolves g (.formula name args) v h
  | value {v : Content} : v.isFormula = false → (∀ s, v ≠ .text s) → Resolves g v v 0
  | cellTree {s : String} {a : Address} {name : Json} {args : List Content} {v : Content} {h : Nat} :
      Address.ofSpelling? s.toList = some a → g.content a = .formula name args →
      Yields g name args v h → Resolves g (.text s) v h
  | cellValue {s : String} {a : Address} :
      Address.ofSpelling? s.toList = some a → (g.content a).isFormula = false →
      Resolves g (.text s) (g.content a) 0
  | noCell {s : String} :
      isReference s.toList = true → Address.ofSpelling? s.toList = none →
      Resolves g (.text s) .blank 0
  | numeral {s : String} {n : Number} :
      isReference s.toList = false → isNumeral s.toList = true → Number.read s = .ok n →
      Resolves g (.text s) (.number n) 0
  | longNumeral {s : String} {e : NumeralError} :
      isReference s.toList = false → isNumeral s.toList = true → Number.read s = .error e →
      Resolves g (.text s) .nan 0
  | truth (value : Bool) : Resolves g (.text (booleanWord value)) (.bool value) 0
  | quoted {s : String} {inner : List Char} :
      isReference s.toList = false → isNumeral s.toList = false →
      unquoted? s.toList = some inner → Resolves g (.text s) (.text (String.ofList inner)) 0
  | verbatim {s : String} :
      isReference s.toList = false → isNumeral s.toList = false →
      (∀ value, s ≠ booleanWord value) → unquoted? s.toList = none →
      Resolves g (.text s) (.text s) 0

inductive ResolvesAll (g : Grid) : List Content → List Content → Nat → Prop
  | nil : ResolvesAll g [] [] 0
  | cons {a v : Content} {args vs : List Content} {h k : Nat} :
      Resolves g a v h → ResolvesAll g args vs k → ResolvesAll g (a :: args) (v :: vs) (max h k)

end

/-! ## Evaluation at a depth follows the derivations -/

theorem functionOf?_name (f : Function) : functionOf? (.text f.name) = some f :=
  Function.ofName?_name f

theorem functionOf?_eq_none {name : Json} (h : ∀ f : Function, name ≠ .text f.name) :
    functionOf? name = none := by
  cases hf : functionOf? name with
  | none => rfl
  | some f =>
    cases name with
    | text s => exact absurd (congrArg Json.text (Function.name_of_ofName? hf).symm) (h f)
    | _ => cases hf

theorem evaluateWithin_succ {g : Grid} {levels : Nat} {f : Function} {args : List Content}
    {v : Content} (h : f.apply (g.resolveWith (g.evaluateWithin levels)) args = .ok v) :
    g.evaluateWithin (levels + 1) (.text f.name) args = v := by
  simp only [evaluateWithin, functionOf?_name, h]

theorem evaluateWithin_fault {g : Grid} {levels : Nat} {f : Function} {args : List Content}
    {e : Fault} (h : f.apply (g.resolveWith (g.evaluateWithin levels)) args = .error e) :
    g.evaluateWithin (levels + 1) (.text f.name) args = .nan := by
  simp only [evaluateWithin, functionOf?_name, h]

theorem evaluateWithin_aggregate {g : Grid} {levels : Nat} (f : Aggregate) (args : List Content) :
    g.evaluateWithin (levels + 1) (.text f.name) args =
      Aggregate.outcome (f.compute (args.map (g.resolveWith (g.evaluateWithin levels)))) := by
  cases hcompute : f.compute (args.map (g.resolveWith (g.evaluateWithin levels))) with
  | some n =>
    apply evaluateWithin_succ (f := .aggregate f)
    simp only [Function.apply, hcompute, Aggregate.outcome]
  | none =>
    apply evaluateWithin_fault (f := .aggregate f) (e := .numberTooLarge)
    simp only [Function.apply, hcompute]

theorem exists_level {h levels : Nat} (hle : h + 1 ≤ levels) : ∃ n, levels = n + 1 ∧ h ≤ n :=
  ⟨levels - 1, by omega, by omega⟩

mutual

theorem Yields.evaluateWithin_eq {g : Grid} {name : Json} {args : List Content} {v : Content}
    {h : Nat} : Yields g name args v h → ∀ levels, h ≤ levels → g.evaluateWithin levels name args = v
  | .unknown hname => by
    intro levels hle
    obtain ⟨n, rfl, -⟩ := exists_level hle
    simp only [evaluateWithin, functionOf?_eq_none hname]
  | .aggregate f hargs => by
    intro levels hle
    obtain ⟨n, rfl, hn⟩ := exists_level hle
    rw [evaluateWithin_aggregate, hargs.map_resolveWith_eq n hn]
  | .failed f hf hargs hfail => by
    intro levels hle
    obtain ⟨n, rfl, hn⟩ := exists_level hle
    -- The arguments behind the failure are evaluated too, but they make no difference.
    rw [evaluateWithin_aggregate, List.map_append, hargs.map_resolveWith_eq n hn,
      Aggregate.compute_append_eq_none hf hfail]
    rfl
  | .chosen hc ha => by
    intro levels hle
    obtain ⟨n, rfl, hn⟩ := exists_level hle
    -- Nothing is known of the branch that is not chosen, and nothing is needed.
    apply evaluateWithin_succ (f := .choice)
    simp only [Function.apply, hc.resolveWith_eq n (by omega), ha.resolveWith_eq n (by omega)]
  | .otherwise hc hb => by
    intro levels hle
    obtain ⟨n, rfl, hn⟩ := exists_level hle
    apply evaluateWithin_succ (f := .choice)
    simp only [Function.apply, hc.resolveWith_eq n (by omega), hb.resolveWith_eq n (by omega)]
  | .undecided hc hv => by
    intro levels hle
    obtain ⟨n, rfl, hn⟩ := exists_level hle
    apply evaluateWithin_succ (f := .choice)
    simp only [Function.apply, hc.resolveWith_eq n hn]
    split
    · exact absurd rfl (hv true)
    · exact absurd rfl (hv false)
    · rfl
  | @Yields.choiceArity _ args hlength => by
    intro levels hle
    obtain ⟨n, rfl, -⟩ := exists_level hle
    apply evaluateWithin_fault (f := .choice) (e := .wrongArity .choice 3 args.length)
    exact Function.apply_choice_eq_error hlength
  | .compared f ha hb => by
    intro levels hle
    obtain ⟨n, rfl, hn⟩ := exists_level hle
    apply evaluateWithin_succ (f := .comparison f)
    simp only [Function.apply, ha.resolveWith_eq n (by omega), hb.resolveWith_eq n (by omega)]
    rfl
  | .incomparable f ha hb hvw => by
    intro levels hle
    obtain ⟨n, rfl, hn⟩ := exists_level hle
    obtain ⟨e, he⟩ := Comparison.compute_eq_error (f := f) hvw
    apply evaluateWithin_fault (f := .comparison f) (e := e)
    simp only [Function.apply, ha.resolveWith_eq n (by omega), hb.resolveWith_eq n (by omega), he]
    rfl
  | @Yields.comparisonArity _ args f hlength => by
    intro levels hle
    obtain ⟨n, rfl, -⟩ := exists_level hle
    refine evaluateWithin_fault (f := .comparison f)
      (e := .wrongArity (.comparison f) 2 args.length) ?_
    exact Function.apply_comparison_eq_error hlength
  | .literal ha hv => by
    intro levels hle
    obtain ⟨n, rfl, hn⟩ := exists_level hle
    apply evaluateWithin_succ (f := .literal)
    simp only [Function.apply, ha, Bool.false_eq_true, if_false, hv.resolveWith_eq n hn]
  | .literalTree ha => by
    intro levels hle
    obtain ⟨n, rfl, -⟩ := exists_level hle
    apply evaluateWithin_succ (f := .literal)
    simp only [Function.apply, ha, if_true]
  | .literalNone => by
    intro levels hle
    obtain ⟨n, rfl, -⟩ := exists_level hle
    rfl

theorem Resolves.resolveWith_eq {g : Grid} {a v : Content} {h : Nat} :
    Resolves g a v h → ∀ levels, h ≤ levels → g.resolveWith (g.evaluateWithin levels) a = v
  | .tree hv => hv.evaluateWithin_eq
  | .value hformula htext => by
    intro levels hle
    cases v with
    | text s => exact absurd rfl (htext s)
    | formula name args => cases hformula
    | _ => rfl
  | .cellTree haddress hcell hv => by
    intro levels hle
    -- The tree in the cell is evaluated at the level of the argument, as its height says.
    simp only [resolveWith, tokenWith, isReference_of_ofSpelling? haddress, if_true, haddress, hcell]
    exact hv.evaluateWithin_eq levels hle
  | .cellValue haddress hcell => by
    intro levels hle
    simp only [resolveWith, tokenWith, isReference_of_ofSpelling? haddress, if_true, haddress]
    exact Content.valueWith_of_isFormula hcell _
  | .noCell href haddress => by
    intro levels hle
    simp only [resolveWith, tokenWith, href, if_true, haddress]
  | .numeral href hnumeral hread => by
    intro levels hle
    simp only [resolveWith, tokenWith, href, hnumeral, hread, Bool.false_eq_true, if_false, if_true]
  | .longNumeral href hnumeral hread => by
    intro levels hle
    simp only [resolveWith, tokenWith, href, hnumeral, hread, Bool.false_eq_true, if_false, if_true]
  | .truth value => by
    intro levels hle
    cases value <;> rfl
  | .quoted href hnumeral hinner => by
    intro levels hle
    simp only [resolveWith, tokenWith, href, hnumeral, hinner, Bool.false_eq_true, if_false,
      ofBooleanWord?_of_unquoted? hinner]
  | .verbatim href hnumeral hword hquoted => by
    intro levels hle
    simp only [resolveWith, tokenWith, href, hnumeral, hquoted, Bool.false_eq_true, if_false,
      ofBooleanWord?_eq_none_iff.mpr hword]

theorem ResolvesAll.map_resolveWith_eq {g : Grid} {args vs : List Content} {h : Nat} :
    ResolvesAll g args vs h → ∀ levels, h ≤ levels →
      args.map (g.resolveWith (g.evaluateWithin levels)) = vs
  | .nil => fun _ _ => rfl
  | .cons ha hargs => by
    intro levels hle
    rw [List.map_cons, ha.resolveWith_eq levels (by omega),
      hargs.map_resolveWith_eq levels (by omega)]

end

/-- Evaluation at a depth gives the value of every derivation that fits under the greatest depth. -/
theorem evaluate_eq_of_yields {g : Grid} {name : Json} {args : List Content} {v : Content} {h : Nat}
    {depth : Int} (hyields : Yields g name args v h) (hheight : depth + h ≤ maxDepth + 1) :
    g.evaluate depth (.formula name args) = v := by
  have hle : h ≤ levelsAt depth := by
    unfold levelsAt
    omega
  exact hyields.evaluateWithin_eq _ hle

/-- Row 1 is a sum in `A1`, a number in `B1` and a formula in `C1` that refers to itself. -/
def looped : Grid :=
  ⟨[[.call (.aggregate .sum) [.text "B1", .text "2"], .integer 3,
    .call (.aggregate .sum) [.text "C1", .text "1"]]]⟩

theorem looped_sum : Yields looped (.text "SUM") [.text "B1", .text "2"] (.integer 5) 1 := by
  have hcell : Resolves looped (.text "B1") (.integer 3) 0 :=
    .cellValue (a := ⟨1, ⟨1, by decide⟩, false, false⟩) rfl rfl
  have hnumeral : Resolves looped (.text "2") (.integer 2) 0 := .numeral rfl rfl rfl
  exact .aggregate .sum (.cons hcell (.cons hnumeral .nil))

theorem looped_cell : Resolves looped (.text "A1") (.integer 5) 1 :=
  .cellTree (a := ⟨1, ⟨0, by decide⟩, false, false⟩) rfl rfl looped_sum

/-- At depth 8 three formulas fit inside one another, and the branch that would go round in a loop
is not chosen. -/
theorem evaluate_looped_choice :
    looped.evaluate 8 (.call .choice [.call (.comparison .less) [.text "A1", .text "10"],
      .text "A1", .text "C1"]) = .integer 5 := by
  have hten : Resolves looped (.text "10") (.integer 10) 0 := .numeral rfl rfl rfl
  have hholds : Comparison.less.holds ((Number.integer 5).compare? (.integer 10)) = true := by
    decide +kernel
  have hless : Yields looped (.text "LESS_THAN") [.text "A1", .text "10"] (.bool true) 2 := by
    rw [← hholds]
    exact .compared .less looped_cell hten
  have hchoice : Yields looped (.text "IF")
      [.call (.comparison .less) [.text "A1", .text "10"], .text "A1", .text "C1"] (.integer 5) 3 :=
    .chosen (.tree hless) looped_cell
  exact evaluate_eq_of_yields hchoice (by decide)

end Grid

end Spreadsheet
