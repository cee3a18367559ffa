import Spreadsheet.Proofs.Number.Decimals
import Spreadsheet.Proofs.Reference.Destination

/-!
# What a move can come to

Every text can be cut into pieces, and all of them can be moved but for one kind: a reference that stays on
the sheet and gets to a row of more digits than a number is written with. With a reference of this kind
the move of the whole text fails. Of any other text each piece comes to itself, to a reference to where it
goes, or to `#REF!`.
-/

namespace Spreadsheet

open Text

variable {rows columns : Int}

/-! ## Pieces -/

structure Reference.Overflows (r : Reference) (rows columns : Int) (a : Address) : Prop where
  address?_eq : r.address? = some a
  staysOnSheet : a.StaysOnSheet rows columns
  tooLong : maxDigits < (Nat.toDigits 10 (a.rowTo rows).toNat).length

inductive Piece.Becomes (rows columns : Int) : Piece → List Char → Prop
  | verbatim (text : List Char) : Becomes rows columns (.verbatim text) text
  | nowhere {r : Reference} :
      (∀ a, r.address? = some a → ¬ a.StaysOnSheet rows columns) →
      Becomes rows columns (.reference r) invalidReference
  | cell {r : Reference} {a : Address} {c : Column} :
      r.address? = some a → a.StaysOnSheet rows columns → (c.index : Int) = a.columnTo columns →
      (Nat.toDigits 10 (a.rowTo rows).toNat).length ≤ maxDigits →
      Becomes rows columns (.reference r) (Reference.spelling
        ⟨a.columnAnchored, c.label, a.rowAnchored, Nat.toDigits 10 (a.rowTo rows).toNat⟩)

theorem integerText?_of_lt_length {n : Int} (hn : 0 ≤ n)
    (h : maxDigits < (Nat.toDigits 10 n.toNat).length) : integerText? n = none := by
  rw [integerText?_of_nonneg hn, if_pos h]

namespace Reference

theorem Overflows.shifted_eq {r : Reference} {a : Address} (h : r.Overflows rows columns a) :
    r.shifted rows columns = .error .rowTooLong := by
  obtain ⟨hrow, hlo, hhi⟩ := h.staysOnSheet
  obtain ⟨c, hc, -⟩ := Column.exists_ofInt? hlo hhi
  have hnone := integerText?_of_lt_length (by omega) h.tooLong
  rw [shifted_of_address? h.address?_eq, if_neg (Int.not_lt.mpr hrow), hc]
  dsimp only
  rw [hnone]

end Reference

namespace Piece

theorem Becomes.shifted_eq {p : Piece} {text : List Char} (h : p.Becomes rows columns text) :
    p.shifted rows columns = .ok text := by
  cases h with
  | verbatim => rfl
  | nowhere hleaves => exact Reference.shifted_eq_invalid hleaves
  | @cell r a c haddress hstays hcolumn hdigits =>
    obtain ⟨c', hcolumn', hmoved⟩ := Reference.shifted_eq_spelling haddress hstays hdigits
    -- There is one column of an index.
    obtain rfl := Column.eq_of_index_eq (hcolumn'.trans hcolumn.symm)
    exact hmoved

theorem becomes_or_overflows (p : Piece) (rows columns : Int) :
    (∃ text, p.Becomes rows columns text) ∨ ∃ r a, p = .reference r ∧ r.Overflows rows columns a := by
  cases p with
  | verbatim text => exact .inl ⟨text, .verbatim text⟩
  | reference r =>
    by_cases hstays : ∃ a, r.address? = some a ∧ a.StaysOnSheet rows columns
    · obtain ⟨a, haddress, hstays⟩ := hstays
      rcases Nat.lt_or_ge maxDigits (Nat.toDigits 10 (a.rowTo rows).toNat).length with hlong | hshort
      · exact .inr ⟨r, a, rfl, haddress, hstays, hlong⟩
      · obtain ⟨c, -, hcolumn⟩ := Column.exists_ofInt? hstays.2.1 hstays.2.2
        exact .inl ⟨_, .cell haddress hstays hcolumn hshort⟩
    · exact .inl ⟨_, .nowhere fun a haddress hstay => hstays ⟨a, haddress, hstay⟩⟩

theorem shifted_eq_ok_iff {p : Piece} {text : List Char} :
    p.shifted rows columns = .ok text ↔ p.Becomes rows columns text := by
  refine ⟨fun h => ?_, Becomes.shifted_eq⟩
  rcases p.becomes_or_overflows rows columns with ⟨text', hbecomes⟩ | ⟨r, a, rfl, hoverflows⟩
  · rw [hbecomes.shifted_eq] at h
    cases h
    exact hbecomes
  · have herror := hoverflows.shifted_eq
    have hok : r.shifted rows columns = .ok text := h
    rw [herror] at hok
    cases hok

theorem mapM_shifted_eq_ok_iff {ps : List Piece} {parts : List (List Char)} :
    ps.mapM (Piece.shifted rows columns) = .ok parts ↔
      List.Forall₂ (Becomes rows columns) ps parts := by
  rw [mapM_eq_ok_iff]
  simp only [shifted_eq_ok_iff]

end Piece

/-! ## Texts -/

/-- Without an overflow every piece becomes something, and so does the text. -/
theorem exists_shiftReferences_of_not_overflows {text : String}
    (h : ∀ r a, Piece.reference r ∈ Piece.split text.toList → ¬ r.Overflows rows columns a) :
    ∃ moved, shiftReferences text rows columns = .ok moved := by
  obtain ⟨parts, hparts⟩ : ∃ parts,
      (Piece.split text.toList).mapM (Piece.shifted rows columns) = .ok parts := by
    refine exists_mapM_of_forall fun p hp => ?_
    rcases p.becomes_or_overflows rows columns with ⟨moved, hbecomes⟩ | ⟨r, a, rfl, hoverflows⟩
    · exact ⟨moved, hbecomes.shifted_eq⟩
    · exact absurd hoverflows (h r a hp)
  unfold shiftReferences
  rw [hparts]
  exact ⟨_, rfl⟩

/-- One reference that cannot be moved is enough for the text not to be moved. -/
theorem Reference.Overflows.shiftReferences_ne {r : Reference} {a : Address}
    (h : r.Overflows rows columns a) {text : String}
    (hmem : Piece.reference r ∈ Piece.split text.toList) (moved : String) :
    shiftReferences text rows columns ≠ .ok moved := by
  intro hshift
  obtain ⟨parts, hparts, -⟩ := bind_eq_ok hshift
  obtain ⟨part, hpart⟩ := exists_of_mapM hparts hmem
  have herror : Piece.shifted rows columns (.reference r) = .error .rowTooLong := h.shifted_eq
  rw [herror] at hpart
  cases hpart

/-- A moved text consists of what its pieces become. It is not moved if the row of a reference that stays
on the sheet has too many digits, and only then. -/
theorem shiftReferences_outcome (text : String) (rows columns : Int) :
    (∀ moved, shiftReferences text rows columns = .ok moved ↔
      ∃ parts, List.Forall₂ (Piece.Becomes rows columns) (Piece.split text.toList) parts ∧
        moved = String.ofList parts.flatten) ∧
    ((∃ e, shiftReferences text rows columns = .error e) ↔
      ∃ r a, Piece.reference r ∈ Piece.split text.toList ∧ r.Overflows rows columns a) := by
  constructor
  · -- The text comes out exactly when every piece does, and one failing piece is enough for the
    -- error.
    intro moved
    constructor
    · intro h
      obtain ⟨parts, hparts, hmoved⟩ := bind_eq_ok h
      exact ⟨parts, Piece.mapM_shifted_eq_ok_iff.mp hparts, (Except.ok.inj hmoved).symm⟩
    · rintro ⟨parts, hbecomes, rfl⟩
      unfold shiftReferences
      rw [Piece.mapM_shifted_eq_ok_iff.mpr hbecomes]
      rfl
  · constructor
    · rintro ⟨e, he⟩
      by_contra hnone
      obtain ⟨moved, hmoved⟩ := exists_shiftReferences_of_not_overflows
        fun r a hmem hoverflows => hnone ⟨r, a, hmem, hoverflows⟩
      rw [hmoved] at he
      cases he
    · rintro ⟨r, a, hmem, hoverflows⟩
      cases hshift : shiftReferences text rows columns with
      | error e => exact ⟨e, rfl⟩
      | ok moved => exact absurd hshift (hoverflows.shiftReferences_ne hmem moved)

theorem decimalValue_nines (n : Nat) : decimalValue (List.replicate n '9') + 1 = tenPow n := by
  -- The last nine is split off, since a run of digits is read from the left.
  induction n with
  | zero => rfl
  | succ n ih =>
    have hstep : decimalValue (List.replicate n '9' ++ ['9']) =
        10 * decimalValue (List.replicate n '9') + 9 := by
      unfold decimalValue
      rw [List.foldl_append]
      rfl
    rw [List.replicate_succ', hstep, tenPow_succ, ← ih]
    omega

/-- Below the last row that can be read is one that cannot be written. -/
theorem Reference.overflows_of_succ {digits : List Char} (hlength : digits.length = maxDigits)
    (hvalue : decimalValue digits + 1 = tenPow maxDigits) :
    Reference.Overflows ⟨false, ['A'], false, digits⟩ 1 0
      ⟨decimalValue digits, ⟨0, by decide⟩, false, false⟩ where
  address?_eq := by
    have hlabel : Column.ofLabel? ['A'] = some ⟨0, by decide⟩ := by decide +kernel
    unfold Reference.address?
    rw [hlabel]
    dsimp only
    rw [hlength, if_neg (Nat.lt_irrefl maxDigits)]
  staysOnSheet := by
    refine ⟨?_, Int.le_refl 0, Int.natCast_pos.mpr (by decide)⟩
    show 1 ≤ (decimalValue digits : Int) + 1
    omega
  tooLong := by
    show maxDigits < decimalLength (decimalValue digits + 1)
    rw [hvalue]
    exact Double.lt_decimalLength (by decide) (Nat.le_refl _)

/-- A row of 4300 nines can be read, and the one below it cannot be written. -/
theorem shiftReferences_nines :
    shiftReferences (String.ofList ('A' :: List.replicate 4300 '9')) 1 0 = .error .rowTooLong ∧
      shiftReferences (String.ofList ('A' :: List.replicate 4300 '9')) 1 0 ≠ .ok "#REF!" := by
  have hlength : (List.replicate 4300 '9').length = maxDigits := List.length_replicate
  have hvalue : decimalValue (List.replicate 4300 '9') + 1 = tenPow maxDigits :=
    decimalValue_nines maxDigits
  have hdecimal : ∀ c ∈ List.replicate 4300 '9', isDecimal c = true := by
    intro c hc
    rw [List.eq_of_mem_replicate hc]
    rfl
  generalize List.replicate 4300 '9' = digits at hlength hvalue hdecimal ⊢
  have hform : Reference.WellFormed ⟨false, ['A'], false, digits⟩ := by
    refine ⟨nofun, ?_, List.forall_mem_singleton.mpr rfl, hdecimal⟩
    exact List.ne_nil_of_length_pos (by rw [hlength]; decide)
  have herror : shiftReferences (String.ofList ('A' :: digits)) 1 0 = .error .rowTooLong := by
    have halone := Reference.shiftReferences_alone hform 1 0
    rwa [(Reference.overflows_of_succ hlength hvalue).shifted_eq] at halone
  rw [herror]
  exact ⟨rfl, nofun⟩

end Spreadsheet
