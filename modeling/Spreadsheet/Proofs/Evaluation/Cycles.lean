import Mathlib.Logic.Relation
import Spreadsheet.Proofs.Evaluation.Depth

/-!
# Formulas that lie in too many others

All seven aggregates work out each of their arguments and hand a `nan` among them on, and a literal
hands on what its text stands for. So a formula that needs more formulas inside one another than the
greatest depth allows is `nan`, whatever its other arguments are, provided that it needs them in such
places alone. Cells that refer to one another in a circle need any number of formulas, and so they are
`nan` at every depth.
-/

namespace Spreadsheet

namespace Content

/-- Whether an argument of a tree always bears on its value: that of an aggregate does, and so does
the text that a literal starts with. -/
inductive StrictArgument : (tree argument : Content) → Prop
  | aggregate {f : Aggregate} {args : List Content} {a : Content} :
      a ∈ args → StrictArgument (.call (.aggregate f) args) a
  | literal {s : String} {more : List Content} :
      StrictArgument (.call .literal (.text s :: more)) (.text s)

def Strict : (tree part : Content) → Prop :=
  Relation.TransGen StrictArgument

theorem StrictArgument.isFormula {tree a : Content} (h : StrictArgument tree a) :
    tree.isFormula = true := by
  cases h <;> rfl

theorem Strict.isFormula {tree part : Content} (h : tree.Strict part) : tree.isFormula = true := by
  cases h using Relation.TransGen.head_induction_on with
  | single hargument => exact hargument.isFormula
  | head hargument _ => exact hargument.isFormula

end Content

open Content

namespace Grid

variable {g : Grid}

/-- An argument that is `nan` leaves the tree at `nan`. -/
theorem evaluate_eq_nan_of_strictArgument {depth : Int} {tree a : Content}
    (hdepth : depth ≤ maxDepth) (h : StrictArgument tree a) (ha : g.resolve (depth + 1) a = .nan) :
    g.evaluate depth tree = .nan := by
  cases h with
  | @aggregate f args _ hmem =>
    have hnan : Content.nan ∈ args.map (g.resolve (depth + 1)) := List.mem_map.mpr ⟨a, hmem, ha⟩
    rw [Content.call, evaluate_formula hdepth, functionOf?_name]
    -- The aggregate comes to `nan`, or it fails on other arguments.
    simp only [Function.apply]
    cases hcompute : f.compute (args.map (g.resolve (depth + 1))) with
    | none => rfl
    | some n =>
      rw [Aggregate.compute_eq_nan hcompute hnan]
      rfl
  | literal =>
    rw [Content.call, evaluate_formula hdepth, functionOf?_name]
    exact ha

/-! ## How many formulas lie inside one another -/

/-- Whether so many formulas lie inside one another in a tree, all in places that bear on its value.
The formula of a cell lies inside the one that refers to the cell. -/
inductive Nests (g : Grid) : (tree : Content) → (n : Nat) → Prop
  | formula {name : Json} {args : List Content} : Nests g (.formula name args) 1
  | inside {tree a : Content} {n : Nat} :
      StrictArgument tree a → Nests g (g.target a) n → Nests g tree (n + 1)

theorem Nests.isFormula {tree : Content} {n : Nat} (h : g.Nests tree n) : tree.isFormula = true := by
  cases h with
  | formula => rfl
  | inside hstrict _ => exact hstrict.isFormula

theorem target_of_isFormula {tree : Content} (h : tree.isFormula = true) : g.target tree = tree := by
  obtain ⟨name, args, rfl⟩ := exists_of_isFormula h
  rfl

theorem Nests.evaluate_eq_nan {depth : Int} {tree : Content} {n : Nat} (h : g.Nests tree n)
    (hn : maxDepth + 1 - depth < n) : g.evaluate depth tree = .nan := by
  -- Each formula around the innermost one lies one depth less far down, and hands the `nan` on.
  induction h generalizing depth with
  | formula => exact evaluate_of_lt (by omega) _ _
  | @inside tree a n hstrict hnests ih =>
    by_cases hdepth : depth ≤ maxDepth
    · have hvalue : g.evaluate (depth + 1) (g.target a) = .nan := ih (by omega)
      rw [← resolve_of_isFormula hnests.isFormula] at hvalue
      exact evaluate_eq_nan_of_strictArgument hdepth hstrict hvalue
    · obtain ⟨name, args, rfl⟩ := exists_of_isFormula hstrict.isFormula
      exact evaluate_of_lt (by omega) name args

/-- What lies deep inside a tree lies inside more than one formula. -/
theorem exists_nests_of_strict {tree part : Content} {n : Nat} (h : tree.Strict part)
    (hpart : g.Nests (g.target part) n) : ∃ m, n < m ∧ g.Nests tree m := by
  -- From the part outwards, one formula at each step.
  induction h using Relation.TransGen.head_induction_on with
  | single hstrict => exact ⟨n + 1, by omega, .inside hstrict hpart⟩
  | head hstrict _ ih =>
    obtain ⟨m, hm, hnests⟩ := ih
    rw [← target_of_isFormula hnests.isFormula] at hnests
    exact ⟨m + 1, by omega, .inside hstrict hnests⟩

/-! ## Circles -/

/-- Whether each of some cells refers to the next one in a place that bears on its value, and the last
one to the first. -/
def IsCircle (g : Grid) {n : Nat} (cell : Fin (n + 1) → Address) : Prop :=
  ∀ i, ∃ s a, (g.content (cell i)).Strict (.text s) ∧ Address.ofSpelling? s.toList = some a ∧
    a.row = (cell (i + 1)).row ∧ a.column = (cell (i + 1)).column

/-- A reference stands for the content of every address with its row and its column. -/
theorem target_text {s : String} {a b : Address} (h : Address.ofSpelling? s.toList = some a)
    (hrow : a.row = b.row) (hcolumn : a.column = b.column) : g.target (.text s) = g.content b := by
  have hcontent : g.content a = g.content b := by
    unfold content
    rw [hrow, hcolumn]
  unfold target
  dsimp only
  rw [if_pos (isReference_of_ofSpelling? h), referent_eq h, hcontent]

theorem IsCircle.isFormula {n : Nat} {cell : Fin (n + 1) → Address} (h : g.IsCircle cell)
    (i : Fin (n + 1)) : (g.content (cell i)).isFormula = true := by
  obtain ⟨s, a, hstrict, -⟩ := h i
  exact hstrict.isFormula

/-- From every cell of a circle there is a way of any length. -/
theorem IsCircle.exists_nests {n : Nat} {cell : Fin (n + 1) → Address} (h : g.IsCircle cell)
    (k : Nat) (i : Fin (n + 1)) : ∃ m, k < m ∧ g.Nests (g.content (cell i)) m := by
  -- Each step around the circle adds a formula at least, whichever cell it starts from.
  induction k generalizing i with
  | zero =>
    obtain ⟨name, args, hcontent⟩ := exists_of_isFormula (h.isFormula i)
    rw [hcontent]
    exact ⟨1, by omega, .formula⟩
  | succ k ih =>
    obtain ⟨s, a, hstrict, ha, hrow, hcolumn⟩ := h i
    obtain ⟨m, hm, hnests⟩ := ih (i + 1)
    rw [← target_text ha hrow hcolumn] at hnests
    obtain ⟨m', hm', hnests'⟩ := exists_nests_of_strict hstrict hnests
    exact ⟨m', by omega, hnests'⟩

/-- Cells that refer to one another in a circle are `nan` at every depth, and so is a formula that
needs more formulas inside one another than the depth allows. -/
theorem evaluate_eq_nan_of_strict (g : Grid) :
    (∀ (n : Nat) (cell : Fin (n + 1) → Address), g.IsCircle cell →
      ∀ (depth : Int) (i : Fin (n + 1)), g.evaluate depth (g.content (cell i)) = .nan) ∧
    ∀ (depth : Int) (tree : Content) (n : Nat), g.Nests tree n → maxDepth + 1 - depth < n →
      g.evaluate depth tree = .nan := by
  constructor
  · intro n cell h depth i
    obtain ⟨m, hm, hnests⟩ := h.exists_nests (maxDepth + 1 - depth).toNat i
    exact hnests.evaluate_eq_nan (by omega)
  · intro depth tree n h hn
    exact h.evaluate_eq_nan hn

/-- The cells `A1` and `B1` refer to each other. From `C1` one comes to `E1` by way of `D1`. -/
def entangled : Grid :=
  ⟨[[.call (.aggregate .multiply) [.integer 0, .text "B1"],
    .record (.call .literal [.text "$A$1", .blank]),
    .call (.aggregate .subtract) [.text "D1", .integer 1],
    .call .literal [.text "E1"],
    .integer 7]]⟩

def entangledCell (i : Fin 2) : Address :=
  ⟨1, ⟨i, Nat.lt_of_lt_of_le i.isLt (by decide)⟩, false, false⟩

theorem isCircle_entangled : entangled.IsCircle entangledCell := by
  refine Fin.forall_fin_two.mpr ⟨?_, ?_⟩
  · have hstrict : (entangled.content (entangledCell 0)).Strict (.text "B1") :=
      .single (.aggregate (by simp))
    exact ⟨"B1", ⟨1, ⟨1, by decide⟩, false, false⟩, hstrict, rfl, rfl, rfl⟩
  · have hstrict : (entangled.content (entangledCell 1)).Strict (.text "$A$1") := .single .literal
    exact ⟨"$A$1", ⟨1, ⟨0, by decide⟩, true, true⟩, hstrict, rfl, rfl, rfl⟩

def reaching : Content :=
  .call (.aggregate .sum) [.integer 5, .text "C1"]

theorem nests_reaching : entangled.Nests reaching 3 := by
  have hcell : entangled.Nests (entangled.target (.text "D1")) 1 := .formula
  have hdifference : entangled.Nests (entangled.target (.text "C1")) 2 :=
    .inside (.aggregate List.mem_cons_self) hcell
  exact .inside (.aggregate (by simp)) hdifference

/-- Both a circle and a way that is too long are `nan`. One depth less is enough for the way. -/
theorem evaluate_entangled :
    entangled.IsCircle entangledCell ∧
      entangled.evaluate (-3) (.call .literal [.text "$A$1", .blank]) = .nan ∧
      entangled.Nests reaching 3 ∧ entangled.evaluate 9 reaching = .nan ∧
      entangled.evaluate 8 reaching = .integer 11 := by
  obtain ⟨hcircle, hway⟩ := evaluate_eq_nan_of_strict entangled
  exact ⟨isCircle_entangled, hcircle 1 entangledCell isCircle_entangled (-3) 1, nests_reaching,
    hway 9 reaching 3 nests_reaching (by decide), by rfl⟩

end Grid

end Spreadsheet
