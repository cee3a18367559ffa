import Mathlib.Logic.Relation
import Spreadsheet.Proofs.Evaluation.Relocation
import Spreadsheet.Session

/-!
# Entering and copying

What is entered into a cell is found in it and nowhere else. So each cell of a session holds what its
source is read as, whatever was entered or copied before and whatever was refused. The copy of a formula
that relocates has the value of the formula, if its references have moved to cells that hold the same.
-/

namespace Spreadsheet

open Text Piece

def Address.SameCell (a b : Address) : Prop :=
  a.row = b.row ∧ a.column.index = b.column.index

instance Address.decidableSameCell (a b : Address) : Decidable (a.SameCell b) :=
  inferInstanceAs (Decidable (_ ∧ _))

namespace Grid

theorem cell?_set (g : Grid) (row : Nat) (a : Address) (ha : a.row = row + 1) (c : Content)
    (row' column : Nat) :
    (g.set a c).cell? row' column =
      if row = row' ∧ a.column.index = column then (g.cell? row' column).map fun _ => c
      else g.cell? row' column := by
  have hset : g.set a c = ⟨g.rows.modify row fun cells => cells.set a.column.index c⟩ := by
    unfold set
    rw [ha]
  rw [hset]
  -- Rows may differ in length, and writing past the end of one changes nothing.
  simp only [cell?, List.getElem?_modify]
  cases g.rows[row']? with
  | none => simp
  | some cells =>
    by_cases hrow : row = row'
    · simp only [hrow, if_true, Option.bind_some, true_and]
      by_cases hcolumn : a.column.index = column
      · by_cases hlength : column < cells.length
        · simp [hcolumn, hlength]
        · simp [hcolumn, hlength]
      · simp [hcolumn]
    · simp [hrow]

theorem holds_set (g : Grid) (a : Address) (c : Content) (b : Address) :
    (g.set a c).holds b = g.holds b := by
  cases ha : a.row with
  | zero =>
    unfold set
    rw [ha]
  | succ row =>
    unfold holds
    cases b.row with
    | zero => rfl
    | succ row' =>
      simp only [cell?_set g row a ha]
      split
      · rw [Option.isSome_map]
      · rfl

theorem content_set {g : Grid} {a : Address} (h : g.holds a = true) (c : Content) (b : Address) :
    (g.set a c).content b = if a.SameCell b then opened c else g.content b := by
  obtain ⟨row, ha⟩ : ∃ row, a.row = row + 1 := by
    cases hrow : a.row with
    | zero =>
      unfold holds at h
      rw [hrow] at h
      cases h
    | succ row => exact ⟨row, rfl⟩
  unfold content
  cases hb : b.row with
  | zero =>
    have hother : ¬a.SameCell b := fun hsame => by
      have hrow := hsame.1
      omega
    rw [if_neg hother]
  | succ row' =>
    dsimp only
    rw [cell?_set g row a ha]
    -- Rows count from one in an address and from zero in the grid, which omega bridges.
    by_cases hsame : a.SameCell b
    · obtain ⟨hrow, hcolumn⟩ := hsame
      have hrow' : row = row' := by omega
      unfold holds at h
      rw [ha, hrow', hcolumn] at h
      obtain ⟨cell, hcell⟩ := Option.isSome_iff_exists.mp h
      rw [if_pos ⟨hrow', hcolumn⟩, if_pos ⟨hrow, hcolumn⟩, hcell]
      rfl
    · have hother : ¬(row = row' ∧ a.column.index = b.column.index) := by
        rintro ⟨hrow, hcolumn⟩
        exact hsame ⟨by omega, hcolumn⟩
      rw [if_neg hother, if_neg hsame]

end Grid

namespace Session

variable {s s' : Session} {a : Address} {value content : Content}

/-! ## Entering -/

theorem enterAt_eq_ok_iff :
    s.enterAt a value = .ok (s', content) ↔
      value.read = .ok content ∧ s.grid.holds a = true ∧
        s' = ⟨s.grid.set a content, ⟨a.row, a.column, value⟩ :: s.sources⟩ := by
  unfold enterAt
  cases value.read with
  | error e => simp
  | ok c =>
    by_cases hholds : s.grid.holds a = true
    · simp only [hholds, if_true, Except.ok.injEq, Prod.mk.injEq, true_and]
      constructor
      · rintro ⟨rfl, rfl⟩
        exact ⟨rfl, rfl⟩
      · rintro ⟨rfl, rfl⟩
        exact ⟨rfl, rfl⟩
    · simp [hholds]

theorem sourceAt_cons (grid : Grid) (a : Address) (value : Content) (sources : List Source)
    (b : Address) :
    sourceAt ⟨grid, ⟨a.row, a.column, value⟩ :: sources⟩ b =
      if a.SameCell b then value else sourceAt ⟨grid, sources⟩ b := by
  unfold sourceAt
  by_cases hsame : a.SameCell b
  · rw [if_pos hsame]
    simp [hsame.1, hsame.2]
  · have hother : (a.row = b.row && a.column.index = b.column.index) = false := by
      simpa [Address.SameCell] using hsame
    simp only [List.find?_cons, hother, if_neg hsame]

/-- What is entered is found in its cell. All other cells keep what they hold, and their sources. -/
theorem content_of_enterAt (h : s.enterAt a value = .ok (s', content)) (b : Address) :
    s'.grid.content b = (if a.SameCell b then Grid.opened content else s.grid.content b) ∧
      s'.sourceAt b = if a.SameCell b then value else s.sourceAt b := by
  obtain ⟨-, hholds, rfl⟩ := enterAt_eq_ok_iff.mp h
  exact ⟨Grid.content_set hholds content b, sourceAt_cons _ a value s.sources b⟩

theorem holds_of_enterAt (h : s.enterAt a value = .ok (s', content)) (b : Address) :
    s'.grid.holds b = s.grid.holds b := by
  obtain ⟨-, -, rfl⟩ := enterAt_eq_ok_iff.mp h
  exact s.grid.holds_set a content b

/-! ## What a session goes through -/

def Coherent (s : Session) : Prop :=
  ∀ a, s.grid.holds a = true →
    ∃ c, (s.sourceAt a).read = .ok c ∧ s.grid.content a = Grid.opened c

inductive Step (s : Session) : Session → Prop
  | entered {reference : String} {value content : Content} {s' : Session} :
      s.enter reference value = .ok (s', content) → Step s s'
  | copied {source target : String} {copied : Copied} {content : Content} {s' : Session} :
      s.copy source target = .ok copied → copied.outcome = .ok (s', content) → Step s s'

/-- A copy enters something into its target. -/
theorem exists_enterAt_of_copyAt {source target : Address} {copied : Copied}
    (h : s.copyAt source target = .ok copied) :
    ∃ value, copied.outcome = s.enterAt target value := by
  unfold copyAt at h
  dsimp only at h
  split at h
  · cases h
    exact ⟨_, rfl⟩
  · split at h
    · cases h
      exact ⟨_, rfl⟩
    · cases h

theorem Step.exists_enterAt (h : Step s s') :
    ∃ a value content, s.enterAt a value = .ok (s', content) := by
  cases h with
  | entered h =>
    obtain ⟨a, -, henter⟩ := bind_eq_ok h
    exact ⟨a, _, _, henter⟩
  | copied hcopy houtcome =>
    obtain ⟨source, -, h⟩ := bind_eq_ok hcopy
    obtain ⟨target, -, h⟩ := bind_eq_ok h
    obtain ⟨value, hvalue⟩ := exists_enterAt_of_copyAt h
    exact ⟨target, value, _, hvalue.symm.trans houtcome⟩

theorem Step.coherent (h : Step s s') (hs : s.Coherent) : s'.Coherent := by
  obtain ⟨a, value, content, henter⟩ := h.exists_enterAt
  intro b hb
  obtain ⟨hcontent, hsource⟩ := content_of_enterAt henter b
  rw [holds_of_enterAt henter] at hb
  rw [hcontent, hsource]
  by_cases hsame : a.SameCell b
  · rw [if_pos hsame, if_pos hsame]
    exact ⟨content, (enterAt_eq_ok_iff.mp henter).1, rfl⟩
  · rw [if_neg hsame, if_neg hsame]
    exact hs b hb

theorem coherent_blank (rows columns : Nat) : (blank rows columns).Coherent := by
  intro a _
  refine ⟨.blank, rfl, ?_⟩
  unfold Grid.content
  split
  · rfl
  · rename_i row _
    have hcell : ∀ c, (Grid.blank rows columns).cell? row a.column.index = some c → c = .blank := by
      intro c hc
      obtain ⟨cells, hcells, hc⟩ := Option.bind_eq_some_iff.mp hc
      obtain rfl := List.eq_of_mem_replicate (List.mem_of_getElem? hcells)
      exact List.eq_of_mem_replicate (List.mem_of_getElem? hc)
    show Grid.opened (((Grid.blank rows columns).cell? row a.column.index).getD .blank) = .blank
    cases hsome : (Grid.blank rows columns).cell? row a.column.index with
    | none => rfl
    | some c =>
      rw [hcell c hsome]
      rfl

/-- Whatever is entered and copied, each cell holds what its source is read as. -/
theorem coherent_of_steps {rows columns : Nat}
    (h : Relation.ReflTransGen Step (blank rows columns) s) : s.Coherent := by
  -- The invariant holds of the blank session and is kept by each step.
  induction h with
  | refl => exact coherent_blank rows columns
  | tail _ hstep ih => exact hstep.coherent ih

/-! ## Copies of formulas -/

/-- The equals sign in front of a formula stays where it is. -/
theorem head?_of_moves {rows columns : Int} {text moved : List Char} (h : text.head? = some '=')
    (hmoves : Moves rows columns (split text) moved) : moved.head? = some '=' := by
  cases text with
  | nil => cases h
  | cons c cs =>
    obtain rfl := Option.some.inj h
    change Moves rows columns (piecesFrom none ('=' :: cs)) moved at hmoves
    rw [piecesFrom_inert none (by decide)] at hmoves
    cases hmoves with
    | verbatim _ _ => rfl

/-- A formula that relocates has the value of its copy in any grid, if what its references move to is what
they stand for, and no formula in turn. -/
theorem evaluate_moved {rows columns : Int} {text : String} {tree : Content} {g g' : Grid}
    (htext : Relocatable rows columns text) (htree : Formula.parse text = .ok tree)
    (hcells : ∀ t ∈ tree.texts, isReference t.toList = true →
      (g.referent t).isFormula = false ∧ g'.referent (movedToken rows columns t) = g.referent t)
    (depth : Int) :
    g'.evaluate depth (tree.mapText (movedToken rows columns)) = g.evaluate depth tree := by
  have hcarries : Grid.Carries (· ∈ tree.texts) (movedToken rows columns) g g' := {
    eq_self := fun t => movedToken_of_not_isReference
    isReference_rename := by
      intro t ht hreference
      obtain ⟨a, a', -, ha', -⟩ := htext.relocates htree t ht hreference
      exact isReference_of_ofSpelling? ha'
    referent := by
      intro t ht hreference
      obtain ⟨hplain, hsame⟩ := hcells t ht hreference
      rw [hsame, Content.renamed_of_not_isFormula hplain]
    texts := by
      intro t ht hreference hformula
      rw [(hcells t ht hreference).1] at hformula
      cases hformula }
  obtain ⟨ts, -, hts, -⟩ := Formula.cut_of_parse htree
  exact hcarries.evaluate_mapText (Formula.isFormula_of_ofTokens hts) (fun _ ht => ht) depth

/-- Copying a formula that relocates enters the text with its references moved, and it has the value of
the original, where its references have moved to cells that hold the same and no formulas. -/
theorem copyAt_of_relocatable {source target : Address} {text : String} {tree : Content}
    (hsource : s.sourceAt source = .text text) (hequals : text.toList.head? = some '=')
    (htree : Formula.parse text = .ok tree) (htarget : s.grid.holds target = true)
    (htext : Relocatable ((target.row : Int) - source.row)
      ((target.column.index : Int) - source.column.index) text) :
    ∃ moved s' copy,
      s.copyAt source target = .ok ⟨some moved, .ok (s', copy)⟩ ∧
      s'.sourceAt target = .text moved ∧ s'.grid.content target = copy ∧
      ∀ depth, (∀ t ∈ tree.texts, isReference t.toList = true →
        (s.grid.referent t).isFormula = false ∧
          s'.grid.referent (movedToken ((target.row : Int) - source.row)
            ((target.column.index : Int) - source.column.index) t) = s.grid.referent t) →
        s'.grid.evaluate depth copy = s.grid.evaluate depth tree := by
  obtain ⟨moved, hmoves⟩ := htext.exists_moves
  have hparse := htext.parse_moved htree hmoves
  have hread : (Content.text moved).read = .ok (tree.mapText (movedToken
      ((target.row : Int) - source.row) ((target.column.index : Int) - source.column.index))) := by
    show Content.readText moved = _
    unfold Content.readText
    rw [if_pos (head?_of_moves hequals hmoves), hparse]
    rfl
  -- The moved text is entered like any other, so the laws of entry give the cell and its source.
  have henter := enterAt_eq_ok_iff.mpr ⟨hread, htarget, rfl⟩
  have hsame : target.SameCell target := ⟨rfl, rfl⟩
  obtain ⟨hcontent, hsource'⟩ := content_of_enterAt henter target
  rw [if_pos hsame] at hcontent hsource'
  obtain ⟨ts, -, hts, -⟩ := Formula.cut_of_parse hparse
  rw [Content.opened_of_isFormula (Formula.isFormula_of_ofTokens hts)] at hcontent
  refine ⟨moved, _, _, ?_, hsource', hcontent, fun depth hcells => ?_⟩
  · have hformula : formulaText? (.text text) = some text := if_pos hequals
    simp only [copyAt, hsource, hformula, hmoves.shiftReferences_eq, henter]
  · exact evaluate_moved htext htree hcells depth

end Session

end Spreadsheet
