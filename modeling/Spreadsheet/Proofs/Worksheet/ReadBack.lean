import Spreadsheet.Proofs.Evaluation.Renaming
import Spreadsheet.Proofs.Reference.RoundTrip
import Spreadsheet.Worksheet

/-!
# Worksheets are read back

A cell of a worksheet has the value that was assigned to it last. So the grid of a worksheet is as
large as the greatest row and column that were assigned, and the reference that is spelled with the
label of a column and the digits of a row stands for what was assigned last in this column and row. A
value that cannot be read makes the grid fail, and of several such values the first one row by row.
-/

namespace Spreadsheet

open Text

/-! ## Rows of greatest numbers -/

theorem foldl_max_max {α : Type} (key : α → Nat) (xs : List α) (n m : Nat) :
    xs.foldl (fun n x => max n (key x)) (max n m) = max (xs.foldl (fun n x => max n (key x)) n) m := by
  have hmap : ∀ k, xs.foldl (fun n x => max n (key x)) k = (xs.map key).foldl max k :=
    fun _ => List.foldl_map.symm
  rw [hmap, hmap, Nat.max_comm n m, List.foldl_assoc, Nat.max_comm]

theorem max?_map_eq_foldl {α : Type} (key : α → Nat) {xs : List α} (hne : xs ≠ [])
    (hpos : ∀ x ∈ xs, 1 ≤ key x) :
    (xs.map key).max? = some (xs.foldl (fun n x => max n (key x)) 1) := by
  cases xs with
  | nil => exact absurd rfl hne
  | cons x xs =>
    have hx : max 1 (key x) = key x := Nat.max_eq_right (hpos x List.mem_cons_self)
    rw [List.map_cons, List.max?_cons', List.foldl_map, List.foldl_cons, hx]

/-! ## Labels and digits -/

theorem integerText?_natCast {n : Nat} (h : (Nat.toDigits 10 n).length ≤ maxDigits) :
    integerText? (n : Int) = some (String.ofList (Nat.toDigits 10 n)) := by
  rw [integerText?_of_nonneg (Int.natCast_nonneg n), Int.toNat_natCast, if_neg (Nat.not_lt.mpr h)]

theorem Column.labelAt_of_lt {n : Nat} (h : n < columnCount) :
    labelAt (((n + 1 : Nat) : Int) - 1) = .ok (String.ofList (label ⟨n, h⟩)) := by
  have hindex : ((n + 1 : Nat) : Int) - 1 = n := by omega
  rw [hindex]
  exact labelAt_index ⟨n, h⟩

theorem WorksheetCell.isAt_iff {row column : Nat} {c : WorksheetCell} :
    c.isAt row column = true ↔ c.row = row ∧ c.column = column := by
  simp only [isAt, Bool.and_eq_true, decide_eq_true_eq]

namespace Worksheet

/-! ## Assignments one after the other -/

def ofAssignments (xs : List WorksheetCell) : Except AssignError Worksheet :=
  xs.foldlM (fun w x => w.assign x.row x.column x.value) empty

def lastValue? (xs : List WorksheetCell) (row column : Nat) : Option Content :=
  (xs.reverse.find? (WorksheetCell.isAt row column)).map (·.value)

theorem lastValue?_append_singleton (xs : List WorksheetCell) (x : WorksheetCell)
    (row column : Nat) :
    lastValue? (xs ++ [x]) row column =
      if x.isAt row column then some x.value else lastValue? xs row column := by
  unfold lastValue?
  rw [List.reverse_append, List.reverse_singleton, List.singleton_append, List.find?_cons]
  cases x.isAt row column <;> rfl

theorem exists_of_lastValue? {xs : List WorksheetCell} {row column : Nat} {v : Content}
    (h : lastValue? xs row column = some v) :
    ∃ x ∈ xs, x.row = row ∧ x.column = column ∧ x.value = v := by
  obtain ⟨x, hx, hv⟩ := Option.map_eq_some_iff.mp h
  obtain ⟨hrow, hcolumn⟩ := WorksheetCell.isAt_iff.mp (List.find?_some hx)
  exact ⟨x, List.mem_reverse.mp (List.mem_of_find?_eq_some hx), hrow, hcolumn, hv⟩

/-- The greatest number of some cells takes in that of a cell that is placed. -/
theorem foldl_max_place {key : WorksheetCell → Nat}
    (hkey : ∀ c d, c.isAt d.row d.column = true → key c = key d) (x : WorksheetCell)
    (cells : List WorksheetCell) (n : Nat) :
    (place x cells).foldl (fun n c => max n (key c)) n =
      max (cells.foldl (fun n c => max n (key c)) n) (key x) := by
  -- A cell that takes the place of another one has the same key.
  induction cells generalizing n with
  | nil => rfl
  | cons c cells ih =>
    unfold place
    split
    · rename_i hsame
      rw [List.foldl_cons, List.foldl_cons, hkey c x hsame, foldl_max_max, Nat.max_assoc,
        Nat.max_self]
    · rw [List.foldl_cons, List.foldl_cons, ih]

structure Keeps (w : Worksheet) (xs : List WorksheetCell) : Prop where
  value?_eq : ∀ row column, w.value? row column = lastValue? xs row column
  rowCount_eq : w.rowCount = xs.foldl (fun n x => max n x.row) 1
  columnCount_eq : w.columnCount = xs.foldl (fun n x => max n x.column) 1

theorem keeps_empty : empty.Keeps [] where
  value?_eq _ _ := rfl
  rowCount_eq := rfl
  columnCount_eq := rfl

theorem Keeps.place {w : Worksheet} {xs : List WorksheetCell} (h : w.Keeps xs) (x : WorksheetCell) :
    (⟨place x w.cells⟩ : Worksheet).Keeps (xs ++ [x]) where
  value?_eq row column := by
    rw [lastValue?_append_singleton, ← h.value?_eq]
    unfold value?
    rw [find?_place]
    split <;> rfl
  rowCount_eq := by
    have hkey : ∀ c d : WorksheetCell, c.isAt d.row d.column = true → c.row = d.row :=
      fun c d hat => (WorksheetCell.isAt_iff.mp hat).1
    rw [List.foldl_append, ← h.rowCount_eq]
    exact foldl_max_place hkey x w.cells 1
  columnCount_eq := by
    have hkey : ∀ c d : WorksheetCell, c.isAt d.row d.column = true → c.column = d.column :=
      fun c d hat => (WorksheetCell.isAt_iff.mp hat).2
    rw [List.foldl_append, ← h.columnCount_eq]
    exact foldl_max_place hkey x w.cells 1

theorem assign_eq {w : Worksheet} {x : WorksheetCell} (hrow : 1 ≤ x.row) (hcolumn : 1 ≤ x.column)
    (hkept : kept x.value = .ok x.value) :
    w.assign x.row x.column x.value =
      if maxRow < x.row then .error (.noRow x.row) else .ok ⟨place x w.cells⟩ := by
  unfold assign
  rw [if_neg (by omega), hkept]
  rfl

structure IsPlain (x : WorksheetCell) : Prop where
  row_pos : 1 ≤ x.row
  column_pos : 1 ≤ x.column
  column_le : x.column ≤ Spreadsheet.columnCount
  kept_eq : kept x.value = .ok x.value

theorem Keeps.foldlM {xs ys : List WorksheetCell} {w w' : Worksheet}
    (hplain : ∀ x ∈ xs, IsPlain x) (h : w.Keeps ys)
    (hw : xs.foldlM (fun w x => w.assign x.row x.column x.value) w = .ok w') :
    w'.Keeps (ys ++ xs) ∧ ∀ x ∈ xs, x.row ≤ maxRow := by
  -- The invariant is `Keeps` of the assignments so far, which each further one joins at their end.
  induction xs generalizing w ys with
  | nil =>
    cases hw
    rw [List.append_nil]
    exact ⟨h, nofun⟩
  | cons x xs ih =>
    obtain ⟨hx, hxs⟩ := List.forall_mem_cons.mp hplain
    obtain ⟨next, hnext, hrest⟩ := bind_eq_ok hw
    change w.assign x.row x.column x.value = .ok next at hnext
    rw [assign_eq hx.row_pos hx.column_pos hx.kept_eq] at hnext
    split at hnext
    · cases hnext
    · rename_i hrow
      cases hnext
      obtain ⟨hkeeps, hrows⟩ := ih hxs (h.place x) hrest
      rw [List.append_assoc, List.singleton_append] at hkeeps
      exact ⟨hkeeps, List.forall_mem_cons.mpr ⟨by omega, hrows⟩⟩

theorem exists_foldlM {xs : List WorksheetCell} (hplain : ∀ x ∈ xs, IsPlain x)
    (hrows : ∀ x ∈ xs, x.row ≤ maxRow) (w : Worksheet) :
    ∃ w', xs.foldlM (fun w x => w.assign x.row x.column x.value) w = .ok w' := by
  -- An assignment in a row of the sheet succeeds on any worksheet.
  induction xs generalizing w with
  | nil => exact ⟨w, rfl⟩
  | cons x xs ih =>
    obtain ⟨hx, hxs⟩ := List.forall_mem_cons.mp hplain
    obtain ⟨hrow, hrest⟩ := List.forall_mem_cons.mp hrows
    rw [List.foldlM_cons, assign_eq hx.row_pos hx.column_pos hx.kept_eq, if_neg (by omega)]
    exact ih hxs hrest _

theorem exists_ofAssignments_iff {xs : List WorksheetCell} (hplain : ∀ x ∈ xs, IsPlain x) :
    (∃ w, ofAssignments xs = .ok w) ↔ ∀ x ∈ xs, x.row ≤ maxRow := by
  constructor
  · rintro ⟨w, hw⟩
    exact (keeps_empty.foldlM hplain hw).2
  · intro hrows
    exact exists_foldlM hplain hrows empty

theorem keeps_ofAssignments {xs : List WorksheetCell} {w : Worksheet}
    (hplain : ∀ x ∈ xs, IsPlain x) (h : ofAssignments xs = .ok w) : w.Keeps xs :=
  (keeps_empty.foldlM hplain h).1

/-- The greatest row and the greatest column of some assignments. -/
theorem Keeps.max?_eq {w : Worksheet} {xs : List WorksheetCell} (h : w.Keeps xs)
    (hplain : ∀ x ∈ xs, IsPlain x) (hne : xs ≠ []) :
    (xs.map (·.row)).max? = some w.rowCount ∧ (xs.map (·.column)).max? = some w.columnCount := by
  rw [h.rowCount_eq, h.columnCount_eq]
  exact ⟨max?_map_eq_foldl _ hne fun x hx => (hplain x hx).row_pos,
    max?_map_eq_foldl _ hne fun x hx => (hplain x hx).column_pos⟩

/-- Whatever was assigned lies within the size of the worksheet. -/
theorem Keeps.bounds {w : Worksheet} {xs : List WorksheetCell} (h : w.Keeps xs)
    (hplain : ∀ x ∈ xs, IsPlain x) {row column : Nat} {v : Content}
    (hv : lastValue? xs row column = some v) :
    1 ≤ row ∧ row ≤ w.rowCount ∧ 1 ≤ column ∧ column ≤ w.columnCount := by
  obtain ⟨x, hx, rfl, rfl, -⟩ := exists_of_lastValue? hv
  obtain ⟨hrow, hcolumn⟩ := h.max?_eq hplain (List.ne_nil_of_mem hx)
  exact ⟨(hplain x hx).row_pos,
    (List.max?_eq_some_iff.mp hrow).2 _ (List.mem_map_of_mem hx),
    (hplain x hx).column_pos,
    (List.max?_eq_some_iff.mp hcolumn).2 _ (List.mem_map_of_mem hx)⟩

theorem kept_of_lastValue? {xs : List WorksheetCell} (hplain : ∀ x ∈ xs, IsPlain x)
    {row column : Nat} {v : Content} (hv : lastValue? xs row column = some v) :
    kept v = .ok v := by
  obtain ⟨x, hx, -, -, rfl⟩ := exists_of_lastValue? hv
  exact (hplain x hx).kept_eq

/-! ## The grid of a worksheet -/

section Grid

variable {w : Worksheet} {g : Grid}

theorem grid_eq_ok (h : w.grid = .ok g) :
    (List.range w.rowCount).mapM (fun row =>
      (List.range w.columnCount).mapM fun column => w.read (row + 1) (column + 1)) = .ok g.rows := by
  obtain ⟨rows, hrows, rfl⟩ := map_eq_ok h
  exact hrows

theorem length_rows (h : w.grid = .ok g) : g.rows.length = w.rowCount :=
  length_of_mapM_range (grid_eq_ok h)

/-- Every row of the grid is read from one of the worksheet. -/
theorem exists_row_of_mem (h : w.grid = .ok g) {cells : List Content} (hcells : cells ∈ g.rows) :
    ∃ row, (List.range w.columnCount).mapM (fun column => w.read (row + 1) (column + 1)) =
      .ok cells := by
  have hall := forall_of_mapM (p := fun cells => ∃ row, (List.range w.columnCount).mapM
    (fun column => w.read (row + 1) (column + 1)) = .ok cells) (grid_eq_ok h)
    fun row _ cells hrow => ⟨row, hrow⟩
  exact hall cells hcells

theorem length_of_mem_rows (h : w.grid = .ok g) {cells : List Content} (hcells : cells ∈ g.rows) :
    cells.length = w.columnCount := by
  obtain ⟨row, hrow⟩ := exists_row_of_mem h hcells
  exact length_of_mapM_range hrow

theorem exists_cell?_of_lt (h : w.grid = .ok g) {row column : Nat} (hrow : row < w.rowCount)
    (hcolumn : column < w.columnCount) :
    ∃ c, g.cell? row column = some c ∧ w.read (row + 1) (column + 1) = .ok c := by
  obtain ⟨cells, hcells, hread⟩ := getElem?_of_mapM_range (grid_eq_ok h) hrow
  obtain ⟨c, hc, hvalue⟩ := getElem?_of_mapM_range hread hcolumn
  refine ⟨c, ?_, hvalue⟩
  unfold Grid.cell?
  rw [hcells, Option.bind_some, hc]

theorem cell?_eq_none (h : w.grid = .ok g) {row column : Nat}
    (hout : w.rowCount ≤ row ∨ w.columnCount ≤ column) : g.cell? row column = none := by
  unfold Grid.cell?
  rcases hout with hrow | hcolumn
  · rw [List.getElem?_eq_none (by rw [length_rows h]; exact hrow), Option.bind_none]
  · cases hcells : g.rows[row]? with
    | none => rfl
    | some cells =>
      have hlength := length_of_mem_rows h (List.mem_of_getElem? hcells)
      rw [Option.bind_some, List.getElem?_eq_none (by rw [hlength]; exact hcolumn)]

theorem read_eq_error_iff {row column : Nat} {e : CellError} :
    w.read row column = .error e ↔ ∃ v, w.value? row column = some v ∧ v.read = .error e := by
  unfold read
  cases w.value? row column with
  | none => simp
  | some v => simp

theorem read_of_value? {row column : Nat} {v : Content} (h : w.value? row column = some v) :
    w.read row column = v.read := by
  unfold read
  rw [h]

/-- The grid fails with what the first place of it fails with that cannot be read, row by row. -/
theorem grid_eq_error_iff {e : CellError} :
    w.grid = .error e ↔ ∃ row < w.rowCount, ∃ column < w.columnCount,
      w.read (row + 1) (column + 1) = .error e ∧
      (∀ row' < row, ∀ column' < w.columnCount, ∃ c, w.read (row' + 1) (column' + 1) = .ok c) ∧
      ∀ column' < column, ∃ c, w.read (row + 1) (column' + 1) = .ok c := by
  have hmap : w.grid = .error e ↔ (List.range w.rowCount).mapM (fun row =>
      (List.range w.columnCount).mapM fun column => w.read (row + 1) (column + 1)) = .error e := by
    unfold grid
    dsimp only
    cases (List.range w.rowCount).mapM fun row =>
      (List.range w.columnCount).mapM fun column => w.read (row + 1) (column + 1) with
    | error e' => simp [Except.map]
    | ok rows => simp [Except.map]
  -- The same lemma twice: the first failing row, and in it the first failing column.
  rw [hmap, mapM_range_eq_error_iff]
  constructor
  · rintro ⟨row, hrow, herror, hrows⟩
    obtain ⟨column, hcolumn, hread, hcolumns⟩ := mapM_range_eq_error_iff.mp herror
    refine ⟨row, hrow, column, hcolumn, hread, fun row' hrow' column' hcolumn' => ?_, hcolumns⟩
    obtain ⟨cells, hcells⟩ := hrows row' hrow'
    obtain ⟨c, -, hc⟩ := getElem?_of_mapM_range hcells hcolumn'
    exact ⟨c, hc⟩
  · rintro ⟨row, hrow, column, hcolumn, hread, hrows, hcolumns⟩
    refine ⟨row, hrow, mapM_range_eq_error_iff.mpr ⟨column, hcolumn, hread, hcolumns⟩,
      fun row' hrow' => ?_⟩
    exact exists_mapM_of_forall fun column' hcolumn' =>
      hrows row' hrow' column' (List.mem_range.mp hcolumn')

end Grid

/-! ## What is read is no record -/

theorem opened_of_readText {s : String} {c : Content} (h : Content.readText s = .ok c) :
    Grid.opened c = c := by
  unfold Content.readText at h
  split at h
  · cases hparse : Formula.parse s with
    | error e =>
      rw [hparse] at h
      cases h
    | ok tree =>
      rw [hparse] at h
      cases h
      exact Content.opened_of_isFormula (Formula.isFormula_of_parse hparse)
  · cases h
    rfl

theorem opened_of_read {v c : Content} (hkept : kept v = .ok v) (h : v.read = .ok c) :
    Grid.opened c = c := by
  unfold Content.read at h
  split at h
  · exact opened_of_readText h
  · cases h
    rfl
  · split at h
    · cases h
      rfl
    · cases h
  · cases h
    rfl
  · exact opened_of_readText h
  · exact opened_of_readText h
  · cases h
    cases v with
    | record inner => cases hkept
    | _ => rfl

/-! ## References to cells -/

/-- A reference that is spelled with a label and with digits comes to the value of the cell. -/
theorem token_label_digits (g : Grid) (depth : Int) (c : Column) {row : Nat}
    (h : (Nat.toDigits 10 row).length ≤ maxDigits) :
    g.token depth (String.ofList c.label ++ String.ofList (Nat.toDigits 10 row)) =
      g.evaluate depth (g.content ⟨row, c, false, false⟩) := by
  have haddress : Address.ofSpelling?
      (String.ofList c.label ++ String.ofList (Nat.toDigits 10 row)).toList =
        some ⟨row, c, false, false⟩ := by
    have hspelling := Address.ofSpelling?_label false false c h
    simp only [Reference.spelling, Bool.false_eq_true, if_false, List.nil_append, List.append_nil]
      at hspelling
    rw [String.toList_append, String.toList_ofList, String.toList_ofList, hspelling]
  show g.tokenWith _ _ = _
  rw [Grid.tokenWith_of_isReference (isReference_of_ofSpelling? haddress),
    Grid.referent_eq haddress]
  rfl

/-- The content at an address of the grid is what the value there is read as. -/
theorem content_of_grid {w : Worksheet} {xs : List WorksheetCell} {g : Grid} (hkeeps : w.Keeps xs)
    (hplain : ∀ x ∈ xs, IsPlain x) (h : w.grid = .ok g) {row : Nat} (hrow : 1 ≤ row) (c : Column) :
    match lastValue? xs row (c.index + 1) with
    | some v => v.read = .ok (g.content ⟨row, c, false, false⟩)
    | none => g.content ⟨row, c, false, false⟩ = .blank := by
  obtain ⟨row, rfl⟩ := Nat.exists_eq_add_of_le' hrow
  have hcontent : g.content ⟨row + 1, c, false, false⟩ =
      Grid.opened ((g.cell? row c.index).getD .blank) := rfl
  have hvalue := hkeeps.value?_eq (row + 1) (c.index + 1)
  by_cases hin : row < w.rowCount ∧ c.index < w.columnCount
  · obtain ⟨value, hcell, hread⟩ := exists_cell?_of_lt h hin.1 hin.2
    rw [hcontent, hcell, Option.getD_some]
    unfold read at hread
    rw [hvalue] at hread
    cases hlast : lastValue? xs (row + 1) (c.index + 1) with
    | some v =>
      rw [hlast] at hread
      dsimp only at hread ⊢
      rw [hread, opened_of_read (kept_of_lastValue? hplain hlast) hread]
    | none =>
      rw [hlast] at hread
      cases hread
      rfl
  · -- Beyond the extent there is no cell, and no assignment can have been made there either.
    have hout : w.rowCount ≤ row ∨ w.columnCount ≤ c.index := by omega
    rw [hcontent, cell?_eq_none h hout]
    cases hlast : lastValue? xs (row + 1) (c.index + 1) with
    | some v =>
      have hbounds := hkeeps.bounds hplain hlast
      omega
    | none => rfl

/-! ## Worksheets and what was assigned to them -/

structure ReadsBack (w : Worksheet) (xs : List WorksheetCell) : Prop where
  /-- The grid fails just if the last value of some cell cannot be read. -/
  fails_iff : (∃ e, w.grid = .error e) ↔
    ∃ row column v e, lastValue? xs row column = some v ∧ v.read = .error e
  /-- It fails with the error of the first such cell, row by row. -/
  error_iff : ∀ e, w.grid = .error e ↔ ∃ row column v,
    lastValue? xs row column = some v ∧ v.read = .error e ∧
      ∀ row' column' v', row' < row ∨ (row' = row ∧ column' < column) →
        lastValue? xs row' column' = some v' → ∃ c, v'.read = .ok c
  grid_of_nil : xs = [] → w.grid = .ok ⟨[[.blank]]⟩
  /-- The grid has as many rows as the greatest row, and each as many cells as the greatest column. -/
  size : ∀ g, w.grid = .ok g → xs ≠ [] → (xs.map (·.row)).max? = some g.rows.length ∧
    ∀ cells ∈ g.rows, (xs.map (·.column)).max? = some cells.length
  /-- A reference to a cell comes to the value of what was assigned there last. -/
  token : ∀ g, w.grid = .ok g → ∀ row column : Nat, 1 ≤ row →
    (Nat.toDigits 10 row).length ≤ maxDigits → 1 ≤ column → column ≤ Spreadsheet.columnCount →
    ∃ label digits, Column.labelAt ((column : Int) - 1) = .ok label ∧
      integerText? row = some digits ∧ ∀ depth,
        match lastValue? xs row column with
        | some v => ∃ c, v.read = .ok c ∧ g.token depth (label ++ digits) = g.evaluate depth c
        | none => g.token depth (label ++ digits) = .blank

theorem Keeps.read_eq {w : Worksheet} {xs : List WorksheetCell} (h : w.Keeps xs) {row column : Nat}
    {v : Content} (hv : lastValue? xs row column = some v) : w.read row column = v.read :=
  read_of_value? ((h.value?_eq row column).trans hv)

theorem Keeps.exists_read {w : Worksheet} {xs : List WorksheetCell} (h : w.Keeps xs)
    {row column : Nat}
    (hv : ∀ v, lastValue? xs row column = some v → ∃ c, v.read = .ok c) :
    ∃ c, w.read row column = .ok c := by
  cases hlast : lastValue? xs row column with
  | some v =>
    rw [h.read_eq hlast]
    exact hv v hlast
  | none =>
    unfold read
    rw [h.value?_eq, hlast]
    exact ⟨.blank, rfl⟩

theorem Keeps.grid_eq_error_iff {w : Worksheet} {xs : List WorksheetCell} (h : w.Keeps xs)
    (hplain : ∀ x ∈ xs, IsPlain x) {e : CellError} :
    w.grid = .error e ↔ ∃ row column v, lastValue? xs row column = some v ∧ v.read = .error e ∧
      ∀ row' column' v', row' < row ∨ (row' = row ∧ column' < column) →
        lastValue? xs row' column' = some v' → ∃ c, v'.read = .ok c := by
  rw [Worksheet.grid_eq_error_iff]
  constructor
  · rintro ⟨row, hrow, column, hcolumn, hread, hrows, hcolumns⟩
    obtain ⟨v, hv, he⟩ := read_eq_error_iff.mp hread
    rw [h.value?_eq] at hv
    refine ⟨row + 1, column + 1, v, hv, he, fun row' column' v' hbefore hv' => ?_⟩
    -- A value in front of it lies in a row before, or before it in its row.
    obtain ⟨hrow', -, hcolumn', hle⟩ := h.bounds hplain hv'
    obtain ⟨row', rfl⟩ := Nat.exists_eq_add_of_le' hrow'
    obtain ⟨column', rfl⟩ := Nat.exists_eq_add_of_le' hcolumn'
    rw [← h.read_eq hv']
    by_cases hlt : row' < row
    · exact hrows row' hlt column' (by omega)
    · obtain rfl : row' = row := by omega
      exact hcolumns column' (by omega)
  · rintro ⟨row, column, v, hv, he, hbefore⟩
    obtain ⟨hrow, hrowle, hcolumn, hcolumnle⟩ := h.bounds hplain hv
    obtain ⟨row, rfl⟩ := Nat.exists_eq_add_of_le' hrow
    obtain ⟨column, rfl⟩ := Nat.exists_eq_add_of_le' hcolumn
    refine ⟨row, by omega, column, by omega, (h.read_eq hv).trans he, ?_, ?_⟩
    · intro row' hlt column' _
      exact h.exists_read fun v' hv' => hbefore _ _ v' (Or.inl (by omega)) hv'
    · intro column' hlt
      exact h.exists_read fun v' hv' => hbefore _ _ v' (Or.inr ⟨rfl, by omega⟩) hv'

theorem Keeps.grid_fails_iff {w : Worksheet} {xs : List WorksheetCell} (h : w.Keeps xs)
    (hplain : ∀ x ∈ xs, IsPlain x) :
    (∃ e, w.grid = .error e) ↔
      ∃ row column v e, lastValue? xs row column = some v ∧ v.read = .error e := by
  constructor
  · rintro ⟨e, he⟩
    obtain ⟨row, column, v, hv, hread, -⟩ := (h.grid_eq_error_iff hplain).mp he
    exact ⟨row, column, v, e, hv, hread⟩
  · rintro ⟨row, column, v, e, hv, he⟩
    cases hgrid : w.grid with
    | error e' => exact ⟨e', rfl⟩
    | ok g =>
      -- A grid is there only if every value in it has been read.
      obtain ⟨hrow, hrowle, hcolumn, hcolumnle⟩ := h.bounds hplain hv
      obtain ⟨row, rfl⟩ := Nat.exists_eq_add_of_le' hrow
      obtain ⟨column, rfl⟩ := Nat.exists_eq_add_of_le' hcolumn
      have hrow' : row < w.rowCount := by omega
      have hcolumn' : column < w.columnCount := by omega
      obtain ⟨c, -, hc⟩ := exists_cell?_of_lt hgrid hrow' hcolumn'
      rw [h.read_eq hv, he] at hc
      cases hc

/-- A worksheet has room for plain assignments up to its last row, and it is read back as what was
assigned. -/
theorem readsBack_of_ofAssignments {xs : List WorksheetCell} (hplain : ∀ x ∈ xs, IsPlain x) :
    ((∃ w, ofAssignments xs = .ok w) ↔ ∀ x ∈ xs, x.row ≤ maxRow) ∧
      ∀ w, ofAssignments xs = .ok w → w.ReadsBack xs := by
  refine ⟨exists_ofAssignments_iff hplain, fun w hw => ?_⟩
  have hkeeps := keeps_ofAssignments hplain hw
  constructor
  · exact hkeeps.grid_fails_iff hplain
  · exact fun e => hkeeps.grid_eq_error_iff hplain
  · rintro rfl
    cases hw
    rfl
  · intro g hg hne
    obtain ⟨hrow, hcolumn⟩ := hkeeps.max?_eq hplain hne
    rw [length_rows hg]
    refine ⟨hrow, fun cells hcells => ?_⟩
    rw [length_of_mem_rows hg hcells]
    exact hcolumn
  · -- Reading goes through the label and the digits of the row, as a formula would.
    intro g hg row column hrow hdigits hcolumn hcolumnle
    obtain ⟨column, rfl⟩ := Nat.exists_eq_add_of_le' hcolumn
    refine ⟨_, _, Column.labelAt_of_lt hcolumnle, integerText?_natCast hdigits, fun depth => ?_⟩
    have hcontent := content_of_grid hkeeps hplain hg hrow ⟨column, hcolumnle⟩
    rw [token_label_digits g depth ⟨column, hcolumnle⟩ hdigits]
    dsimp only at hcontent
    cases hlast : lastValue? xs row (column + 1) with
    | some v =>
      rw [hlast] at hcontent
      exact ⟨_, hcontent, rfl⟩
    | none =>
      rw [hlast] at hcontent
      dsimp only at hcontent ⊢
      rw [hcontent]
      rfl

def sparse : List WorksheetCell :=
  [⟨3, 2, .text "=A1+1"⟩, ⟨1, 1, .text "=1+"⟩, ⟨2, 4, .blank⟩, ⟨1, 1, .integer 5⟩]

def unreadable : List WorksheetCell :=
  [⟨2, 1, .text "=1+"⟩, ⟨1, 3, .text "=(1"⟩]

theorem isPlain_sparse : ∀ x ∈ sparse, IsPlain x := by
  simp only [sparse, List.forall_mem_cons]
  exact ⟨⟨by decide, by decide, by decide, rfl⟩, ⟨by decide, by decide, by decide, rfl⟩,
    ⟨by decide, by decide, by decide, rfl⟩, ⟨by decide, by decide, by decide, rfl⟩, nofun⟩

theorem isPlain_unreadable : ∀ x ∈ unreadable, IsPlain x := by
  simp only [unreadable, List.forall_mem_cons]
  exact ⟨⟨by decide, by decide, by decide, rfl⟩, ⟨by decide, by decide, by decide, rfl⟩, nofun⟩

theorem readsBack_sparse :
    (∀ x ∈ sparse, IsPlain x) ∧ (∀ x ∈ unreadable, IsPlain x) ∧
      (∃ w g, ofAssignments sparse = .ok w ∧ w.ReadsBack sparse ∧ w.grid = .ok g ∧
        g.rows.map List.length = [4, 4, 4] ∧ g.token 0 "B3" = .integer 6) ∧
      ∃ w, ofAssignments unreadable = .ok w ∧ w.ReadsBack unreadable ∧
        w.grid = .error (.badFormula .expectedClosingParen) := by
  have hsheet : ofAssignments sparse =
      .ok ⟨[⟨3, 2, .text "=A1+1"⟩, ⟨1, 1, .integer 5⟩, ⟨2, 4, .blank⟩]⟩ := by rfl
  have hgrid : (⟨[⟨3, 2, .text "=A1+1"⟩, ⟨1, 1, .integer 5⟩, ⟨2, 4, .blank⟩]⟩ : Worksheet).grid =
      .ok ⟨[[.integer 5, .blank, .blank, .blank], [.blank, .blank, .blank, .blank],
        [.blank, .call (.aggregate .sum) [.text "A1", .integer 1], .blank, .blank]]⟩ := by rfl
  have hunreadable : ofAssignments unreadable = .ok ⟨unreadable⟩ := by rfl
  have herror : (⟨unreadable⟩ : Worksheet).grid =
      .error (.badFormula .expectedClosingParen) := by rfl
  have hback := (readsBack_of_ofAssignments isPlain_sparse).2 _ hsheet
  have hback' := (readsBack_of_ofAssignments isPlain_unreadable).2 _ hunreadable
  exact ⟨isPlain_sparse, isPlain_unreadable, ⟨_, _, hsheet, hback, hgrid, rfl, rfl⟩,
    ⟨_, hunreadable, hback', herror⟩⟩

end Worksheet

end Spreadsheet
