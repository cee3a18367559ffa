import Mathlib.Order.MinMax
import Spreadsheet.Proofs.Evaluation.Arguments
import Spreadsheet.Proofs.Results

/-!
# What holds of all values

A value is a number, a truth value, a blank, a text, or something that is among the arguments or in a
cell and is no tree. So a property of these is one of all values: they are never trees, and lists and
tables are nested no deeper in them than in the tree and the grid that they come from.
-/

namespace Spreadsheet

namespace Content

def isScalar : Content → Bool
  | .blank | .bool _ | .number _ | .text _ => true
  | _ => false

end Content

/-- What holds of numbers, of truth values and of what the arguments come to holds of the result. -/
theorem Function.apply_induct {P : Content → Prop} (hscalar : ∀ c, c.isScalar = true → P c)
    {resolve : Content → Content} {f : Function} {args : List Content}
    (hargs : ∀ a ∈ args, P (resolve a)) {v : Content} (hv : f.apply resolve args = .ok v) : P v := by
  -- Each function answers a scalar of its own or hands an argument on.
  cases f with
  | aggregate f =>
    simp only [apply] at hv
    split at hv
    · cases hv
      exact hscalar _ rfl
    · cases hv
  | choice =>
    simp only [apply] at hv
    split at hv
    · rename_i condition consequent alternative
      split at hv
      · cases hv
        exact hargs consequent (by simp)
      · cases hv
        exact hargs alternative (by simp)
      · cases hv
        exact hscalar _ rfl
    · cases hv
  | comparison f =>
    simp only [apply] at hv
    split at hv
    · obtain ⟨value, -, rfl⟩ := map_eq_ok hv
      exact hscalar _ rfl
    · cases hv
  | literal =>
    cases args with
    | nil =>
      cases hv
      exact hscalar _ rfl
    | cons value more =>
      simp only [apply] at hv
      split at hv
      · cases hv
        exact hscalar _ rfl
      · cases hv
        exact hargs value (by simp)

namespace Grid

/-- Whether one property is that of values, given another one of all trees that are evaluated and of all
that is in cells: the first holds of what evaluation makes, and of what the second holds of and is no
tree, and the second holds of the arguments of a tree that it holds of. -/
structure Inherits (g : Grid) (P Q : Content → Prop) : Prop where
  scalar : ∀ c, c.isScalar = true → P c
  value : ∀ c, Q c → c.isFormula = false → P c
  argument : ∀ name args, Q (.formula name args) → ∀ a ∈ args, Q a
  cell : ∀ a, Q (g.content a)

namespace Inherits

variable {g : Grid} {P Q : Content → Prop}

theorem resolveWith_of_eval (h : g.Inherits P Q) {eval : Evaluator}
    (heval : ∀ name args, (∀ a ∈ args, Q a) → P (eval name args)) {a : Content} (ha : Q a) :
    P (g.resolveWith eval a) := by
  have hgiven : ∀ c, Q c → P (c.valueWith eval) := by
    intro c hc
    cases c with
    | formula name args => exact heval name args (h.argument name args hc)
    | _ => exact h.value _ hc rfl
  cases a with
  | text token =>
    unfold resolveWith tokenWith
    dsimp only
    split
    · -- A reference comes to the value of what is in its cell.
      split
      · exact hgiven _ (h.cell _)
      · exact h.scalar _ rfl
    · split
      · split <;> exact h.scalar _ rfl
      · split
        · exact h.scalar _ rfl
        · split <;> exact h.scalar _ rfl
  | _ => exact hgiven _ ha

theorem evaluateWithin (h : g.Inherits P Q) (levels : Nat) (name : Json) {args : List Content}
    (hargs : ∀ a ∈ args, Q a) : P (g.evaluateWithin levels name args) := by
  -- The arguments are worked out on the level below, and the second property is handed down to
  -- them.
  induction levels generalizing name args with
  | zero => exact h.scalar _ rfl
  | succ levels ih =>
    simp only [Grid.evaluateWithin]
    split
    · exact h.scalar _ rfl
    · split
      · rename_i value happly
        refine Function.apply_induct h.scalar (fun a ha => ?_) happly
        exact h.resolveWith_of_eval (fun name _ => ih name) (hargs a ha)
      · exact h.scalar _ rfl

theorem resolveWith (h : g.Inherits P Q) (levels : Nat) {a : Content} (ha : Q a) :
    P (g.resolveWith (g.evaluateWithin levels) a) :=
  h.resolveWith_of_eval (fun name _ => h.evaluateWithin levels name) ha

end Inherits

/-! ## Values are no trees -/

theorem inherits_isFormula (g : Grid) :
    g.Inherits (fun c => c.isFormula = false) (fun _ => True) where
  scalar c hc := by cases c <;> first | rfl | cases hc
  value _ _ hc := hc
  argument _ _ _ _ _ := trivial
  cell _ := trivial

theorem isFormula_resolveWith (g : Grid) (levels : Nat) (a : Content) :
    (g.resolveWith (g.evaluateWithin levels) a).isFormula = false :=
  g.inherits_isFormula.resolveWith levels trivial

theorem isFormula_evaluateWithin (g : Grid) (levels : Nat) (name : Json) (args : List Content) :
    (g.evaluateWithin levels name args).isFormula = false :=
  g.inherits_isFormula.evaluateWithin levels name fun _ _ => trivial

end Grid

/-! ## Lists and tables in values -/

namespace Json

mutual

def nesting : Json → Nat
  | .list items => nestingItems items + 1
  | .table entries => nestingEntries entries + 1
  | _ => 0

def nestingItems : List Json → Nat
  | [] => 0
  | item :: items => max (nesting item) (nestingItems items)

def nestingEntries : List (String × Json) → Nat
  | [] => 0
  | (_, value) :: entries => max (nesting value) (nestingEntries entries)

end

mutual

/-- Data is shown if there is a frame for each list and table around anything, unless a number in it is
too long. -/
theorem shown_of_nesting_lt : ∀ (j : Json) {frames : Nat}, j.nesting < frames →
    j.shown frames ≠ .error .nestedTooDeeply
  | .null, frames + 1, _ => nofun
  | .bool value, frames + 1, _ => nofun
  | .number n, frames + 1, _ => by
    show n.shown ≠ _
    unfold Number.shown
    split <;> nofun
  | .text s, frames + 1, _ => nofun
  | .list items, frames + 1, h => by
    intro hshown
    exact shownItems_of_nesting_lt items (Nat.lt_of_succ_lt_succ h) (map_eq_error hshown)
  | .table entries, frames + 1, h => by
    intro hshown
    exact shownEntries_of_nesting_lt entries (Nat.lt_of_succ_lt_succ h) (map_eq_error hshown)

theorem shownItems_of_nesting_lt : ∀ (items : List Json) {frames : Nat},
    nestingItems items < frames → shownItems frames items ≠ .error .nestedTooDeeply
  | [], _, _ => nofun
  | item :: items, frames, h => by
    obtain ⟨hitem, hitems⟩ := max_lt_iff.mp h
    intro hshown
    rcases bind_eq_error hshown with hfirst | ⟨part, -, hrest⟩
    · exact shown_of_nesting_lt item hitem hfirst
    · rcases bind_eq_error hrest with hmore | ⟨parts, -, hlast⟩
      · exact shownItems_of_nesting_lt items hitems hmore
      · cases hlast

theorem shownEntries_of_nesting_lt : ∀ (entries : List (String × Json)) {frames : Nat},
    nestingEntries entries < frames → shownEntries frames entries ≠ .error .nestedTooDeeply
  | [], _, _ => nofun
  | (key, value) :: entries, frames, h => by
    obtain ⟨hvalue, hentries⟩ := max_lt_iff.mp h
    intro hshown
    rcases bind_eq_error hshown with hfirst | ⟨part, -, hrest⟩
    · exact shown_of_nesting_lt value hvalue hfirst
    · rcases bind_eq_error hrest with hmore | ⟨parts, -, hlast⟩
      · exact shownEntries_of_nesting_lt entries hentries hmore
      · cases hlast

end

end Json

namespace Content

mutual

def dataNesting : Content → Nat
  | .list items => (Json.list items).nesting
  | .table entries => (Json.table entries).nesting
  | .record inner => dataNesting inner
  | .formula _ args => dataNestingAll args
  | _ => 0

def dataNestingAll : List Content → Nat
  | [] => 0
  | arg :: args => max (dataNesting arg) (dataNestingAll args)

end

theorem dataNesting_le {args : List Content} {a : Content} (ha : a ∈ args) :
    a.dataNesting ≤ dataNestingAll args := by
  induction args with
  | nil => cases ha
  | cons arg args ih =>
    rcases List.mem_cons.mp ha with rfl | hmem
    · exact le_max_left _ _
    · exact (ih hmem).trans (le_max_right _ _)

theorem shown_of_dataNesting_lt {c : Content} {frames : Nat} (hc : c.isFormula = false)
    (h : c.dataNesting < frames) : c.shown frames ≠ .error .nestedTooDeeply := by
  obtain _ | frames := frames
  · cases h
  cases c with
  | number n => exact Json.shown_of_nesting_lt (.number n) (Nat.succ_pos frames)
  | list items => exact Json.shown_of_nesting_lt (.list items) h
  | table entries => exact Json.shown_of_nesting_lt (.table entries) h
  | formula name args => cases hc
  | _ => nofun

end Content

namespace Grid

def dataNesting (g : Grid) : Nat :=
  Content.dataNestingAll g.rows.flatten

theorem dataNesting_content_le (g : Grid) (a : Address) : (g.content a).dataNesting ≤ g.dataNesting := by
  have hopened : ∀ c : Content, (opened c).dataNesting = c.dataNesting := by
    intro c
    cases c <;> simp [opened, Content.dataNesting]
  unfold content
  split
  · exact Nat.zero_le _
  · rename_i row _
    rw [hopened]
    cases hcell : g.cell? row a.column.index with
    | none => exact Nat.zero_le _
    | some c =>
      obtain ⟨cells, hcells, hc⟩ := Option.bind_eq_some_iff.mp hcell
      exact Content.dataNesting_le (List.mem_flatten.mpr
        ⟨cells, List.mem_of_getElem? hcells, List.mem_of_getElem? hc⟩)

theorem inherits_dataNesting {g : Grid} {n : Nat} (h : g.dataNesting ≤ n) :
    g.Inherits (fun c => c.dataNesting ≤ n) (fun c => c.dataNesting ≤ n) where
  scalar c hc := by cases c <;> first | exact Nat.zero_le n | cases hc
  value _ hc _ := hc
  argument _ _ hargs _ ha := (Content.dataNesting_le ha).trans hargs
  cell a := (g.dataNesting_content_le a).trans h

end Grid

end Spreadsheet
