import Mathlib.Data.Set.Operations
import Spreadsheet.Proofs.Evaluation.Renaming

/-!
# The cells that a value depends on

A tree refers to cells, the formulas in these cells refer to more cells, and so on, perhaps round in a
loop. A set of addresses that holds all of them encloses the tree. Nothing outside it is ever looked
at: two grids with the same contents at its addresses give the tree the same value at every depth,
however long their rows are and whatever else they hold.
-/

namespace Spreadsheet

namespace Content

def addresses (tree : Content) : List Address :=
  tree.texts.filterMap fun s => Address.ofSpelling? s.toList

theorem mem_addresses {tree : Content} {a : Address} :
    a ∈ tree.addresses ↔ ∃ s ∈ tree.texts, Address.ofSpelling? s.toList = some a :=
  List.mem_filterMap

mutual

theorem mapText_id (c : Content) : c.mapText id = c := by
  cases c with
  | formula name args => rw [mapText_formula, mapTexts_id args]
  | _ => rfl

theorem mapTexts_id (args : List Content) : mapTexts id args = args := by
  cases args with
  | nil => rfl
  | cons arg args => rw [mapTexts_cons, mapText_id arg, mapTexts_id args]

end

theorem renamed_id (c : Content) : c.renamed id = c := by
  unfold renamed
  rw [mapText_id, ite_self]

end Content

namespace Grid

/-- Whether a set of addresses holds those that a tree refers to and, with the address of a formula in
the grid, those that this formula refers to. -/
structure Encloses (g : Grid) (reach : Set Address) (tree : Content) : Prop where
  tree : ∀ a ∈ tree.addresses, a ∈ reach
  cells : ∀ a ∈ reach, (g.content a).isFormula = true → ∀ b ∈ (g.content a).addresses, b ∈ reach

def PointsInto (reach : Set Address) (s : String) : Prop :=
  ∀ a, Address.ofSpelling? s.toList = some a → a ∈ reach

theorem pointsInto_of_addresses {reach : Set Address} {tree : Content}
    (h : ∀ a ∈ tree.addresses, a ∈ reach) : ∀ s ∈ tree.texts, PointsInto reach s :=
  fun s hs a ha => h a (Content.mem_addresses.mpr ⟨s, hs, ha⟩)

variable {g g' : Grid} {reach : Set Address} {tree : Content}

/-- Between two grids that agree on an enclosing set the texts that point into it keep their names. -/
theorem Encloses.carries (h : g.Encloses reach tree)
    (hcontent : ∀ a ∈ reach, g'.content a = g.content a) : Carries (PointsInto reach) id g g' where
  eq_self _ _ := rfl
  isReference_rename _ _ hs := hs
  referent := by
    intro s hs _
    rw [Content.renamed_id, id_eq]
    unfold referent
    cases ha : Address.ofSpelling? s.toList with
    | none => rfl
    | some a => exact hcontent a (hs a ha)
  texts := by
    intro s hs _ hformula
    cases ha : Address.ofSpelling? s.toList with
    | none =>
      -- A reference without an address stands for no formula.
      unfold referent at hformula
      rw [ha] at hformula
      cases hformula
    | some a =>
      rw [referent_eq ha] at hformula ⊢
      exact pointsInto_of_addresses (h.cells a (hs a ha) hformula)

/-- The value of a tree depends on the contents in an enclosing set of addresses alone. -/
theorem evaluate_eq_of_encloses (h : g.Encloses reach tree)
    (hcontent : ∀ a ∈ reach, g'.content a = g.content a) (depth : Int) :
    g'.evaluate depth tree = g.evaluate depth tree := by
  cases tree with
  | formula name args =>
    have hformula : (Content.formula name args).isFormula = true := rfl
    have hvalue := (h.carries hcontent).evaluate_mapText hformula
      (pointsInto_of_addresses h.tree) depth
    rwa [Content.mapText_id] at hvalue
  | _ => rfl

/-- `A1` adds 2 to `B1`, and `B1` is 4 and refers back to `A1` in the branch that it does not take. -/
def entwined : Grid :=
  ⟨[[.call (.aggregate .sum) [.text "B1", .integer 2],
    .record (.call .choice [.text "TRUE", .integer 4, .text "A1"])]]⟩

def padded : Grid :=
  ⟨[[.record (.call (.aggregate .sum) [.text "B1", .integer 2]),
    .call .choice [.text "TRUE", .integer 4, .text "A1"], .integer 9], [], [.text "A1"]]⟩

def firstPair : Set Address :=
  {a | a.row = 1 ∧ a.column.index ≤ 1}

/-- What is in the two cells refers to nothing but them. -/
theorem encloses_firstPair :
    entwined.Encloses firstPair (.call (.aggregate .sum) [.text "A1", .text "$B$1"]) where
  tree := by
    intro a ha
    obtain rfl | rfl := List.mem_pair.mp (show a ∈ [_, _] from ha)
    · exact ⟨rfl, by decide⟩
    · exact ⟨rfl, by decide⟩
  cells := by
    rintro ⟨row, ⟨index, hindex⟩, _, _⟩ ⟨hrow, hle⟩ _ b hb
    dsimp only at hrow hle
    subst hrow
    obtain rfl | rfl : index = 0 ∨ index = 1 := by omega
    · obtain rfl := List.mem_singleton.mp (show b ∈ [_] from hb)
      exact ⟨rfl, by decide⟩
    · obtain rfl := List.mem_singleton.mp (show b ∈ [_] from hb)
      exact ⟨rfl, by decide⟩

theorem evaluate_padded :
    entwined.Encloses firstPair (.call (.aggregate .sum) [.text "A1", .text "$B$1"]) ∧
      (∀ a ∈ firstPair, padded.content a = entwined.content a) ∧
      padded.evaluate 0 (.call (.aggregate .sum) [.text "A1", .text "$B$1"]) =
        entwined.evaluate 0 (.call (.aggregate .sum) [.text "A1", .text "$B$1"]) ∧
      entwined.evaluate 0 (.call (.aggregate .sum) [.text "A1", .text "$B$1"]) = .integer 10 := by
  have hcontent : ∀ a ∈ firstPair, padded.content a = entwined.content a := by
    rintro ⟨row, ⟨index, hindex⟩, _, _⟩ ⟨hrow, hle⟩
    dsimp only at hrow hle
    subst hrow
    obtain rfl | rfl : index = 0 ∨ index = 1 := by omega
    · rfl
    · rfl
  exact ⟨encloses_firstPair, hcontent, evaluate_eq_of_encloses encloses_firstPair hcontent 0, rfl⟩

end Grid

end Spreadsheet
