import Spreadsheet.Proofs.Evaluation.Renaming
import Spreadsheet.Proofs.Formula.Relocatable
import Spreadsheet.Proofs.Results

/-!
# Sheets that relocate

A sheet holds plain values and the texts of formulas. It is moved as a whole, down by some rows and
to the right by some columns, and the references of its formulas move along. Then every formula has
the value that it had, at each depth.
-/

namespace Spreadsheet

open Text

inductive Entry where
  | plain (c : Content)
  | formula (text : String)

namespace Entry

def content : Entry → Except ParseError Content
  | .plain c => .ok c
  | .formula text => Formula.parse text

def moved (rows columns : Int) : Entry → Except ShiftError Entry
  | .plain c => .ok (.plain c)
  | .formula text => (shiftReferences text rows columns).map .formula

def Relocatable (rows columns : Int) : Entry → Prop
  | .plain c => (Grid.opened c).isFormula = false
  | .formula text => Spreadsheet.Relocatable rows columns text

end Entry

structure Sheet where
  rows : List (List Entry)

namespace Sheet

def grid (s : Sheet) : Except ParseError Grid :=
  (s.rows.mapM (List.mapM Entry.content)).map Grid.mk

def movedRow (rows columns : Nat) (entries : List Entry) : Except ShiftError (List Entry) :=
  (entries.mapM (Entry.moved rows columns)).map (List.replicate columns (.plain .blank) ++ ·)

/-- The sheet moved down and to the right, with new blank rows of any width. The references of its
formulas move along. -/
def moved (s : Sheet) (rows columns width : Nat) : Except ShiftError Sheet :=
  (s.rows.mapM (movedRow rows columns)).map fun moved =>
    ⟨List.replicate rows (List.replicate width (.plain .blank)) ++ moved⟩

end Sheet

/-! ## The grid of a moved sheet -/

namespace Grid

def movedRow (columns : Nat) (rename : String → String) (cells : List Content) : List Content :=
  List.replicate columns .blank ++ cells.map (Content.renamed rename)

def moved (g : Grid) (rows columns width : Nat) (rename : String → String) : Grid :=
  ⟨List.replicate rows (List.replicate width .blank) ++ g.rows.map (movedRow columns rename)⟩

variable {rows columns width : Nat} {rename : String → String}

theorem cell?_moved_of_lt (g : Grid) {row : Nat} (h : row < rows) (column : Nat) :
    ((g.moved rows columns width rename).cell? row column).getD .blank = .blank := by
  have hlength : row < (List.replicate rows (List.replicate width Content.blank)).length := by
    rw [List.length_replicate]
    exact h
  simp only [cell?, moved, List.getElem?_append_left hlength, List.getElem?_replicate, h, if_true,
    Option.bind_some]
  split <;> rfl

theorem cell?_moved_add (g : Grid) (row column : Nat) :
    (g.moved rows columns width rename).cell? (rows + row) (columns + column) =
      (g.cell? row column).map (Content.renamed rename) := by
  -- The row lies behind the new ones, and the cell behind the new ones of its row.
  have hrow : (g.moved rows columns width rename).rows[rows + row]? =
      g.rows[row]?.map (movedRow columns rename) := by
    simp only [moved]
    rw [List.getElem?_append_right (by simp), List.length_replicate, Nat.add_sub_cancel_left,
      List.getElem?_map]
  have hcolumn : ∀ cells : List Content, (movedRow columns rename cells)[columns + column]? =
      cells[column]?.map (Content.renamed rename) := by
    intro cells
    simp only [movedRow]
    rw [List.getElem?_append_right (by simp), List.length_replicate, Nat.add_sub_cancel_left,
      List.getElem?_map]
  unfold cell?
  rw [hrow]
  cases g.rows[row]? with
  | none => rfl
  | some cells => exact hcolumn cells

/-- A formula is renamed inside its cell, if it does not lie in a record. -/
theorem opened_renamed {c : Content} (h : (opened c).isFormula = true → c.isFormula = true) :
    opened (c.renamed rename) = (opened c).renamed rename := by
  cases hformula : c.isFormula with
  | true =>
    have hrenamed : (c.renamed rename).isFormula = true := by
      rw [Content.isFormula_renamed]
      exact hformula
    rw [Content.opened_of_isFormula hrenamed, Content.opened_of_isFormula hformula]
  | false =>
    have hopened : (opened c).isFormula = false := by
      cases hopened : (opened c).isFormula with
      | true =>
        rw [h hopened] at hformula
        cases hformula
      | false => rfl
    rw [Content.renamed_of_not_isFormula hformula, Content.renamed_of_not_isFormula hopened]

end Grid

/-! ## What a moved sheet holds -/

/-- Whether a content is no formula, or a formula outside records whose references relocate. -/
def Content.Relocates (rows columns : Int) (c : Content) : Prop :=
  (Grid.opened c).isFormula = true →
    c.isFormula = true ∧ ∀ s ∈ c.texts, Spreadsheet.Relocates rows columns s

variable {rows columns : Nat}

theorem Entry.mapM_content_blank (n : Nat) :
    (List.replicate n (Entry.plain .blank)).mapM Entry.content = .ok (List.replicate n .blank) := by
  have hblank : (Entry.plain .blank).content = .ok .blank := rfl
  exact mapM_replicate hblank n

/-- What is in the cell of an entry that relocates, and in the cell of the moved entry. -/
theorem Entry.Relocatable.content {e : Entry} {c : Content} (h : e.Relocatable rows columns)
    (hc : e.content = .ok c) :
    c.Relocates rows columns ∧ ∃ e', e.moved rows columns = .ok e' ∧
      e'.content = .ok (c.renamed (movedToken rows columns)) := by
  cases e with
  | plain v =>
    cases hc
    have hplain : (Grid.opened c).isFormula = false := h
    refine ⟨fun hformula => ?_, .plain c, rfl, ?_⟩
    · rw [hplain] at hformula
      cases hformula
    · -- A plain value stays as it is, since no text in it is renamed.
      have hself : c.isFormula = false := by
        cases c with
        | formula name args => cases hplain
        | _ => rfl
      rw [Content.renamed_of_not_isFormula hself]
      rfl
  | formula text =>
    have htext : Spreadsheet.Relocatable rows columns text := h
    obtain ⟨ts, -, htree, -⟩ := Formula.cut_of_parse hc
    have hformula := Formula.isFormula_of_ofTokens htree
    obtain ⟨moved, hmoves⟩ := htext.exists_moves
    refine ⟨fun _ => ⟨hformula, htext.relocates hc⟩, .formula moved, ?_, ?_⟩
    · show (shiftReferences text rows columns).map Entry.formula = _
      rw [hmoves.shiftReferences_eq]
      rfl
    · rw [Content.renamed_of_isFormula hformula]
      exact htext.parse_moved hc hmoves

namespace Sheet

variable {s : Sheet} {g : Grid}

def Relocatable (s : Sheet) (rows columns : Int) : Prop :=
  ∀ entries ∈ s.rows, ∀ e ∈ entries, e.Relocatable rows columns

theorem mapM_content (h : s.grid = .ok g) :
    s.rows.mapM (List.mapM Entry.content) = .ok g.rows := by
  unfold grid at h
  cases hrows : s.rows.mapM (List.mapM Entry.content) with
  | error e =>
    rw [hrows] at h
    cases h
  | ok contents =>
    rw [hrows] at h
    cases h
    rfl

theorem exists_movedRow {entries : List Entry} {cells : List Content}
    (h : ∀ e ∈ entries, e.Relocatable rows columns)
    (hcells : entries.mapM Entry.content = .ok cells) :
    ∃ row, movedRow rows columns entries = .ok row ∧
      row.mapM Entry.content = .ok (Grid.movedRow columns (movedToken rows columns) cells) := by
  obtain ⟨moved, hmoved, hcontent⟩ :=
    exists_mapM hcells fun e he c hc => ((h e he).content hc).2
  refine ⟨List.replicate columns (.plain .blank) ++ moved, ?_, ?_⟩
  · unfold movedRow
    rw [hmoved]
    rfl
  · exact mapM_append_eq_ok (Entry.mapM_content_blank columns) hcontent

/-- A sheet that relocates can be moved, and its grid moves along. -/
theorem exists_moved (hs : s.Relocatable rows columns) (hg : s.grid = .ok g) (width : Nat) :
    ∃ moved, s.moved rows columns width = .ok moved ∧
      moved.grid = .ok (g.moved rows columns width (movedToken rows columns)) := by
  obtain ⟨moved, hmoved, hcontent⟩ := exists_mapM (mapM_content hg) fun entries hentries cells =>
    exists_movedRow (hs entries hentries)
  refine ⟨⟨List.replicate rows (List.replicate width (.plain .blank)) ++ moved⟩, ?_, ?_⟩
  · unfold Sheet.moved
    rw [hmoved]
    rfl
  · have hblank := mapM_replicate (Entry.mapM_content_blank width) rows
    unfold grid
    rw [mapM_append_eq_ok hblank hcontent]
    rfl

theorem relocates_of_mem (hs : s.Relocatable rows columns) (hg : s.grid = .ok g) :
    ∀ cells ∈ g.rows, ∀ c ∈ cells, c.Relocates rows columns :=
  forall_of_mapM (mapM_content hg) fun entries hentries _ hcells =>
    forall_of_mapM hcells fun e he _ hc => ((hs entries hentries e he).content hc).1

end Sheet

/-! ## Values after the move -/

namespace Grid

variable {g : Grid} {width : Nat}

theorem content_moved {a a' : Address}
    (hg : ∀ cells ∈ g.rows, ∀ c ∈ cells, c.Relocates rows columns) (hpos : 0 < a'.row)
    (hrow : (a'.row : Int) = a.row + rows)
    (hcolumn : (a'.column.index : Int) = a.column.index + columns) (rename : String → String) :
    (g.moved rows columns width rename).content a' = (g.content a).renamed rename := by
  obtain ⟨row, column, rowAnchored, columnAnchored⟩ := a
  obtain ⟨row', column', rowAnchored', columnAnchored'⟩ := a'
  dsimp only at hpos hrow hcolumn
  have hcolumn' : column'.index = columns + column.index := by omega
  obtain ⟨n, rfl⟩ : ∃ n, row' = n + 1 := ⟨row' - 1, by omega⟩
  cases row with
  | zero =>
    -- A reference to row 0 means no cell. It moves to a new row, which is blank.
    show opened (((g.moved rows columns width rename).cell? n column'.index).getD .blank) = .blank
    rw [cell?_moved_of_lt g (by omega)]
    rfl
  | succ m =>
    -- Every other address means a cell of the grid, or none in both.
    have hn : n = rows + m := by omega
    show opened (((g.moved rows columns width rename).cell? n column'.index).getD .blank) =
      (opened ((g.cell? m column.index).getD .blank)).renamed rename
    rw [hn, hcolumn', cell?_moved_add]
    cases hcell : g.cell? m column.index with
    | none => rfl
    | some c =>
      obtain ⟨cells, hcells, hc⟩ := Option.bind_eq_some_iff.mp hcell
      have hrelocates := hg cells (List.mem_of_getElem? hcells) c (List.mem_of_getElem? hc)
      exact opened_renamed fun hformula => (hrelocates hformula).1

/-- A formula that is found at an address has references that relocate. -/
theorem relocates_of_content {a : Address}
    (hg : ∀ cells ∈ g.rows, ∀ c ∈ cells, c.Relocates rows columns)
    (hformula : (g.content a).isFormula = true) :
    ∀ s ∈ (g.content a).texts, Spreadsheet.Relocates rows columns s := by
  obtain ⟨row, column, rowAnchored, columnAnchored⟩ := a
  cases row with
  | zero => cases hformula
  | succ m =>
    change (opened ((g.cell? m column.index).getD .blank)).isFormula = true at hformula
    show ∀ s ∈ (opened ((g.cell? m column.index).getD .blank)).texts, _
    cases hcell : g.cell? m column.index with
    | none => nofun
    | some c =>
      rw [hcell] at hformula
      obtain ⟨cells, hcells, hc⟩ := Option.bind_eq_some_iff.mp hcell
      have hrelocates := hg cells (List.mem_of_getElem? hcells) c (List.mem_of_getElem? hc)
      obtain ⟨hself, htexts⟩ := hrelocates hformula
      rw [Option.getD_some, Content.opened_of_isFormula hself]
      exact htexts

/-- References that relocate stand for what they stood for. -/
theorem carries_moved (hg : ∀ cells ∈ g.rows, ∀ c ∈ cells, c.Relocates rows columns)
    (width : Nat) : Carries (Spreadsheet.Relocates rows columns) (movedToken rows columns) g
      (g.moved rows columns width (movedToken rows columns)) where
  eq_self _ h := movedToken_of_not_isReference h
  isReference_rename s hs hreference := by
    obtain ⟨a, a', -, ha', -⟩ := hs hreference
    exact isReference_of_ofSpelling? ha'
  referent s hs hreference := by
    obtain ⟨a, a', ha, ha', hpos, hrow, hcolumn⟩ := hs hreference
    rw [referent_eq ha, referent_eq ha']
    exact content_moved hg hpos hrow hcolumn _
  texts s hs hreference hformula := by
    obtain ⟨a, -, ha, -⟩ := hs hreference
    rw [referent_eq ha] at hformula ⊢
    exact relocates_of_content hg hformula

end Grid

/-- Relocating a sheet preserves every result. The sheet can be moved, its formulas can be read where
they have moved to, and a formula that moves along with it has the value that it had, at each depth.
A text that is no formula has no value, and it may become one: `5.D1` moves to the number `5.E1`. -/
theorem Sheet.evaluateText_moved {s : Sheet} {g : Grid} {text : String} {tree : Content}
    (hs : s.Relocatable rows columns) (hg : s.grid = .ok g)
    (htext : Spreadsheet.Relocatable rows columns text) (htree : Formula.parse text = .ok tree)
    (width : Nat) :
    ∃ moved g' text', s.moved rows columns width = .ok moved ∧ moved.grid = .ok g' ∧
      shiftReferences text rows columns = .ok text' ∧
      ∀ depth, ∃ v, g.evaluateText depth text = .ok v ∧ g'.evaluateText depth text' = .ok v := by
  obtain ⟨moved, hmoved, hgrid⟩ := exists_moved hs hg width
  obtain ⟨text', hmoves⟩ := htext.exists_moves
  obtain ⟨ts, -, hts, -⟩ := Formula.cut_of_parse htree
  refine ⟨moved, _, text', hmoved, hgrid, hmoves.shiftReferences_eq, fun depth => ?_⟩
  -- Both evaluations follow the same steps, with the references of one moved in the other.
  have hcarries := Grid.carries_moved (relocates_of_mem hs hg) width
  have hvalue := hcarries.evaluate_mapText (Formula.isFormula_of_ofTokens hts)
    (htext.relocates htree) depth
  refine ⟨g.evaluate depth tree, ?_, ?_⟩
  · unfold Grid.evaluateText
    rw [htree]
    rfl
  · unfold Grid.evaluateText
    rw [htext.parse_moved htree hmoves]
    exact congrArg Except.ok hvalue

def Sheet.sample : Sheet :=
  ⟨[[.plain (.integer 2), .formula "A1+2"]]⟩

theorem Sheet.evaluateText_moved_sample :
    ∃ moved g', Sheet.sample.moved 1 1 0 = .ok moved ∧ moved.grid = .ok g' ∧
      shiftReferences "B1*3" 1 1 = .ok "C2*3" ∧ g'.evaluateText 0 "C2*3" = .ok (.integer 12) := by
  have hcell : Spreadsheet.Relocatable 1 1 "A1+2" := by decide +kernel
  have htext : Spreadsheet.Relocatable 1 1 "B1*3" := by decide +kernel
  have hs : Sheet.sample.Relocatable (1 : Nat) (1 : Nat) := by
    simp only [Sheet.Relocatable, Sheet.sample, List.forall_mem_cons]
    exact ⟨⟨rfl, hcell, nofun⟩, nofun⟩
  obtain ⟨moved, g', text', hmoved, hgrid, hshift, hvalue⟩ :=
    Sheet.evaluateText_moved hs rfl htext rfl 0
  have hshifted : shiftReferences "B1*3" 1 1 = .ok "C2*3" := rfl
  change shiftReferences "B1*3" 1 1 = .ok text' at hshift
  rw [hshifted] at hshift
  cases hshift
  obtain ⟨v, hv, hv'⟩ := hvalue 0
  cases hv
  exact ⟨moved, g', hmoved, hgrid, hshifted, hv'⟩

end Spreadsheet
