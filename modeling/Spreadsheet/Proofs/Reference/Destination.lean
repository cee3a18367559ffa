import Spreadsheet.Proofs.Reference.RoundTrip

/-!
# Where a reference goes

A reference that stands alone moves with its address. The row and the column go on by the way of the
move, unless they are anchored. A reference that then lies on the sheet is spelled with its new
address, and nothing is left of any other one.
-/

namespace Spreadsheet

open Text Scanned

variable {rows columns : Int}

namespace Address

def rowTo (a : Address) (rows : Int) : Int :=
  if a.rowAnchored then a.row else a.row + rows

def columnTo (a : Address) (columns : Int) : Int :=
  if a.columnAnchored then a.column.index else a.column.index + columns

def StaysOnSheet (a : Address) (rows columns : Int) : Prop :=
  1 ≤ a.rowTo rows ∧ 0 ≤ a.columnTo columns ∧ a.columnTo columns < columnCount

end Address

/-! ## Columns and rows of a number -/

namespace Column

theorem exists_ofInt? {n : Int} (hn : 0 ≤ n) (h : n < columnCount) :
    ∃ c, ofInt? n = some c ∧ (c.index : Int) = n := by
  have hindex : n.toNat < columnCount := by omega
  have hsome : ofInt? n = some ⟨n.toNat, hindex⟩ := by
    unfold ofInt? ofNat?
    rw [if_neg (by omega), dif_pos hindex]
  exact ⟨_, hsome, index_of_ofInt? hsome⟩

theorem ofInt?_eq_none {n : Int} (h : n < 0 ∨ columnCount ≤ n) : ofInt? n = none := by
  unfold ofInt? ofNat?
  by_cases hn : n < 0
  · rw [if_pos hn]
  · rw [if_neg hn, dif_neg (by omega)]

end Column

theorem integerText?_of_length_le {n : Int} (hn : 0 ≤ n)
    (h : (Nat.toDigits 10 n.toNat).length ≤ maxDigits) :
    integerText? n = some (String.ofList (Nat.toDigits 10 n.toNat)) := by
  rw [integerText?_of_nonneg hn, if_neg (Nat.not_lt.mpr h)]

/-! ## A reference that stands alone -/

namespace Reference

theorem shifted_of_address? {r : Reference} {a : Address} (h : r.address? = some a) :
    r.shifted rows columns =
      if a.rowTo rows < 1 then .ok invalidReference
      else
        match Column.ofInt? (a.columnTo columns) with
        | none => .ok invalidReference
        | some c =>
          match integerText? (a.rowTo rows) with
          | none => .error .rowTooLong
          | some digits =>
            .ok (spelling ⟨a.columnAnchored, c.label, a.rowAnchored, digits.toList⟩) := by
  unfold shifted
  rw [h]
  rfl

/-- Nothing is left of a reference that means no cell or leaves the sheet. -/
theorem shifted_eq_invalid {r : Reference}
    (h : ∀ a, r.address? = some a → ¬ a.StaysOnSheet rows columns) :
    r.shifted rows columns = .ok invalidReference := by
  cases ha : r.address? with
  | none =>
    unfold shifted
    rw [ha]
  | some a =>
    have hleaves := h a ha
    unfold Address.StaysOnSheet at hleaves
    rw [shifted_of_address? ha]
    by_cases hrow : a.rowTo rows < 1
    · rw [if_pos hrow]
    · rw [if_neg hrow, Column.ofInt?_eq_none (by omega)]

/-- A reference that stays on the sheet is spelled with the label and the number of where it goes. -/
theorem shifted_eq_spelling {r : Reference} {a : Address} (ha : r.address? = some a)
    (h : a.StaysOnSheet rows columns)
    (hdigits : (Nat.toDigits 10 (a.rowTo rows).toNat).length ≤ maxDigits) :
    ∃ c : Column, (c.index : Int) = a.columnTo columns ∧
      r.shifted rows columns = .ok (spelling
        ⟨a.columnAnchored, c.label, a.rowAnchored, Nat.toDigits 10 (a.rowTo rows).toNat⟩) := by
  obtain ⟨hrow, hlo, hhi⟩ := h
  obtain ⟨c, hc, hindex⟩ := Column.exists_ofInt? hlo hhi
  have htext := integerText?_of_length_le (by omega) hdigits
  refine ⟨c, hindex, ?_⟩
  simp only [shifted_of_address? ha, if_neg (Int.not_lt.mpr hrow), hc, htext, String.toList_ofList]

theorem shiftReferences_alone {r : Reference} (h : r.WellFormed) (rows columns : Int) :
    shiftReferences (String.ofList r.spelling) rows columns =
      (r.shifted rows columns).map String.ofList := by
  unfold shiftReferences
  rw [String.toList_ofList, Piece.split_spelling h, List.mapM_cons, List.mapM_nil]
  show ((r.shifted rows columns >>= _) >>= _) = _
  cases r.shifted rows columns with
  | error e => rfl
  | ok moved =>
    show Except.ok (String.ofList [moved].flatten) = .ok (String.ofList moved)
    rw [List.flatten_singleton]

theorem shiftReferences_of_shifted {r : Reference} (h : r.WellFormed) {moved : List Char}
    (hmoved : r.shifted rows columns = .ok moved) :
    shiftReferences (String.ofList r.spelling) rows columns = .ok (String.ofList moved) := by
  rw [shiftReferences_alone h, hmoved]
  rfl

end Reference

/-- A reference that means no cell, or goes off the sheet, becomes `#REF!`. Any other one becomes a
reference to the cell that it gets to, with its anchors and in plain digits without a zero in front. -/
theorem shiftReferences_spelling {r : Reference} (hform : r.WellFormed) (rows columns : Int) :
    ((∀ a, Address.ofSpelling? r.spelling = some a → ¬ a.StaysOnSheet rows columns) →
      shiftReferences (String.ofList r.spelling) rows columns = .ok "#REF!") ∧
    ∀ a, Address.ofSpelling? r.spelling = some a → a.StaysOnSheet rows columns →
      (Nat.toDigits 10 (a.rowTo rows).toNat).length ≤ maxDigits →
      ∃ m : Reference, m.WellFormed ∧
        shiftReferences (String.ofList r.spelling) rows columns = .ok (String.ofList m.spelling) ∧
        (∃ b, Address.ofSpelling? m.spelling = some b ∧
          (b.row : Int) = a.rowTo rows ∧ (b.column.index : Int) = a.columnTo columns ∧
          b.rowAnchored = a.rowAnchored ∧ b.columnAnchored = a.columnAnchored) ∧
        (∀ c ∈ m.digits, isPlainDigit c = true) ∧ m.digits.head? ≠ some '0' := by
  rw [← Reference.address?_eq_ofSpelling? hform]
  constructor
  · intro hleaves
    exact Reference.shiftReferences_of_shifted hform (Reference.shifted_eq_invalid hleaves)
  · intro a ha hstays hdigits
    -- Staying on the sheet keeps the row positive, so its digits have no leading zero.
    have hrow : 0 < (a.rowTo rows).toNat := by
      have := hstays.1
      omega
    obtain ⟨c, hcolumn, hmoved⟩ := Reference.shifted_eq_spelling ha hstays hdigits
    refine ⟨_, Reference.wellFormed_label a.columnAnchored a.rowAnchored c _,
      Reference.shiftReferences_of_shifted hform hmoved, ?_, ?_, ?_⟩
    · exact ⟨_, Address.ofSpelling?_label a.columnAnchored a.rowAnchored c hdigits,
        by dsimp only; omega, hcolumn, rfl, rfl⟩
    · exact fun d hd => isPlainDigit_of_mem_toDigits hd
    · exact head?_toDigits hrow

/-- The row 9 goes on to 14 and the anchored column stays, while 9 rows up there is no row. -/
theorem shiftReferences_nineOfA :
    (∃ m : Reference, m.WellFormed ∧ shiftReferences "$A٠٩" 5 7 = .ok (String.ofList m.spelling) ∧
      m.spelling = "$A14".toList) ∧
    shiftReferences "$A٠٩" (-9) 7 = .ok "#REF!" := by
  have hform : Reference.WellFormed ⟨true, ['A'], false, ['٠', '٩']⟩ :=
    ⟨nofun, nofun, List.forall_mem_singleton.mpr rfl,
      List.forall_mem_cons.mpr ⟨rfl, List.forall_mem_singleton.mpr rfl⟩⟩
  have haddress : Address.ofSpelling? (Reference.spelling ⟨true, ['A'], false, ['٠', '٩']⟩) =
      some ⟨9, ⟨0, by decide⟩, false, true⟩ := by decide +kernel
  constructor
  · obtain ⟨m, hm, hmoved, -⟩ := (shiftReferences_spelling hform 5 7).2 _ haddress
      ⟨by decide, by decide, by decide⟩ (by decide +kernel)
    have hspelled : shiftReferences "$A٠٩" 5 7 = .ok "$A14" := by decide +kernel
    refine ⟨m, hm, hmoved, ?_⟩
    have heq := Except.ok.inj (hmoved.symm.trans hspelled)
    rw [← String.toList_ofList (l := m.spelling), heq]
  · refine (shiftReferences_spelling hform (-9) 7).1 fun a ha => ?_
    rw [haddress] at ha
    cases ha
    intro hstays
    exact absurd hstays.1 (by decide)

end Spreadsheet
