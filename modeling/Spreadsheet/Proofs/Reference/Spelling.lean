import Mathlib.Data.List.Basic
import Spreadsheet.Proofs.Formula.Lexing

/-!
# Spellings of references

A reference that has moved is spelled with the label of a column and with plain digits. Its spelling
is a reference again, and it is read back from the front of every text that does not go on with it.
-/

namespace Spreadsheet

open Text Scanned

/-! ## Labels and numerals -/

namespace Column

theorem isCapital_letter {n : Nat} (h : n < 26) : isCapital (letter n) = true := by
  have hall : ∀ n < 26, isCapital (letter n) = true := by decide
  exact hall n h

theorem isCapital_of_mem_letters {places n : Nat} {c : Char} (h : c ∈ letters places n) :
    isCapital c = true := by
  -- A letter is the last one or one of the quotient.
  induction places generalizing n with
  | zero => cases h
  | succ places ih =>
    unfold letters at h
    split at h
    · rename_i hn
      rw [List.mem_singleton.mp h]
      exact isCapital_letter hn
    · rcases List.mem_append.mp h with hfront | hlast
      · exact ih hfront
      · rw [List.mem_singleton.mp hlast]
        exact isCapital_letter (Nat.mod_lt n (by decide))

theorem isCapital_of_mem_label {c : Column} {d : Char} (h : d ∈ c.label) : isCapital d = true :=
  isCapital_of_mem_letters h

theorem index_of_ofInt? {n : Int} {c : Column} (h : ofInt? n = some c) : (c.index : Int) = n := by
  unfold ofInt? at h
  split at h
  · cases h
  · unfold ofNat? at h
    split at h
    · cases h
      exact Int.toNat_of_nonneg (by omega)
    · cases h

theorem label_ne_nil (c : Column) : c.label ≠ [] := by
  unfold label letters
  split
  · exact List.cons_ne_nil _ _
  · simp

end Column

/-- A number from 0 on is written in its digits, unless they are too many. -/
theorem integerText?_of_nonneg {n : Int} (hn : 0 ≤ n) :
    integerText? n =
      if maxDigits < (Nat.toDigits 10 n.toNat).length then none
      else some (String.ofList (Nat.toDigits 10 n.toNat)) := by
  have habs : n.natAbs = n.toNat := by omega
  unfold integerText?
  dsimp only
  rw [habs, if_neg (Int.not_lt.mpr hn)]

theorem integerText?_eq_some {n : Int} {digits : String} (hn : 0 ≤ n)
    (h : integerText? n = some digits) : digits.toList = Nat.toDigits 10 n.toNat := by
  rw [integerText?_of_nonneg hn] at h
  split at h
  · cases h
  · rw [← Option.some.inj h, String.toList_ofList]

theorem length_toDigits_of_integerText? {n : Int} {digits : String} (hn : 0 ≤ n)
    (h : integerText? n = some digits) : (Nat.toDigits 10 n.toNat).length ≤ maxDigits := by
  rw [integerText?_of_nonneg hn] at h
  split at h
  · cases h
  · rename_i hlength
    exact Nat.not_lt.mp hlength

theorem isPlainDigit_of_mem_toDigits {n : Nat} {c : Char} (h : c ∈ Nat.toDigits 10 n) :
    isPlainDigit c = true := by
  have hdigit := Nat.isDigit_of_mem_toDigits (by decide) (by decide) h
  simp only [Char.isDigit, Bool.and_eq_true, decide_eq_true_eq] at hdigit
  simp only [isPlainDigit, Bool.and_eq_true, decide_eq_true_eq]
  exact hdigit

namespace Text

theorem isDecimal_of_isPlainDigit {c : Char} (h : isPlainDigit c = true) : isDecimal c = true := by
  apply forall_of_inRanges [(0x30, 0x39)] (by decide)
  simp only [isPlainDigit, Bool.and_eq_true, decide_eq_true_eq] at h
  exact inRanges_eq_true_of_mem_head (UInt32.le_iff_toNat_le.mp h.1) (UInt32.le_iff_toNat_le.mp h.2)

end Text

namespace Reference

/-! ## Taking references apart -/

theorem splitAnchor_append_of_head (cs : List Char) {rest : List Char}
    (h : ∀ c ∈ rest.head?, c ≠ '$') :
    splitAnchor (cs ++ rest) = ((splitAnchor cs).1, (splitAnchor cs).2 ++ rest) := by
  cases cs with
  | nil =>
    rw [List.nil_append]
    unfold splitAnchor
    split
    · exact absurd rfl (h '$' rfl)
    · rfl
  | cons c cs =>
    by_cases hc : c = '$'
    · subst hc
      rfl
    · unfold splitAnchor
      split
      · rename_i heq
        exact absurd (List.cons.inj heq).1 hc
      · split
        · rename_i heq
          exact absurd (List.cons.inj heq).1 hc
        · rfl

/-- A reference is taken alike in front of a text that does not go on with a name. -/
theorem take?_append_of_head (cs : List Char) {rest : List Char}
    (h : ∀ c ∈ rest.head?, isNamePart c = false) :
    take? (cs ++ rest) = (take? cs).map fun found => (found.1, found.2 ++ rest) := by
  have hnot : ∀ p : Char → Bool, (∀ c, p c = true → isNamePart c = true) →
      ∀ c ∈ rest.head?, p c = false := by
    intro p hp c hc
    exact eq_false_of_imp (hp c) (h c hc)
  -- No row of letters or digits, and no dollar sign, goes on in what is appended.
  have hcapital := hnot isCapital fun c => isNamePart_of_isCapital
  have hdecimal := hnot isDecimal fun c => isNamePart_of_isDecimal
  have hdollar : ∀ c ∈ rest.head?, c ≠ '$' := by
    intro c hc heq
    subst heq
    have hpart := h '$' hc
    cases hpart
  unfold take?
  simp only [splitAnchor_append_of_head _ hdollar, takeWhile_append_of_head _ hcapital,
    dropWhile_append_of_head _ hcapital, takeWhile_append_of_head _ hdecimal,
    dropWhile_append_of_head _ hdecimal]
  split
  · rfl
  · rfl

structure WellFormed (r : Reference) : Prop where
  letters_ne_nil : r.letters ≠ []
  digits_ne_nil : r.digits ≠ []
  isCapital_letters : ∀ c ∈ r.letters, isCapital c = true
  isDecimal_digits : ∀ c ∈ r.digits, isDecimal c = true

theorem wellFormed_of_take? {cs rest : List Char} {r : Reference} (h : take? cs = some (r, rest)) :
    r.WellFormed := by
  unfold take? at h
  dsimp only at h
  split at h
  · cases h
  · rename_i hempty
    simp only [Bool.or_eq_true, List.isEmpty_iff, not_or] at hempty
    simp only [Option.some.injEq, Prod.mk.injEq] at h
    obtain ⟨rfl, -⟩ := h
    exact ⟨hempty.1, hempty.2, fun _ => List.mem_takeWhile_imp, fun _ => List.mem_takeWhile_imp⟩

theorem splitAnchor_anchor (anchored : Bool) {cs : List Char} (h : ∀ c ∈ cs.head?, c ≠ '$') :
    splitAnchor ((if anchored then ['$'] else []) ++ cs) = (anchored, cs) := by
  cases anchored with
  | true => rfl
  | false =>
    have hsplit := splitAnchor_append_of_head [] h
    exact hsplit

/-- The spelling of a reference is taken whole, unless more digits follow it. -/
theorem take?_spelling_append {r : Reference} (h : r.WellFormed) {rest : List Char}
    (hrest : ∀ c ∈ rest.head?, isDecimal c = false) :
    take? (r.spelling ++ rest) = some (r, rest) := by
  obtain ⟨columnAnchored, letters, rowAnchored, digits⟩ := r
  obtain ⟨hletters, hdigits, hcapital, hdecimal⟩ := h
  dsimp only at hletters hdigits hcapital hdecimal
  -- The letters end before the anchor or the digits of the row.
  have hhead : ∀ c ∈ (digits ++ rest).head?, isCapital c = false ∧ c ≠ '$' := by
    intro c hc
    have hdigit : isDecimal c = true := by
      cases digits with
      | nil => exact absurd rfl hdigits
      | cons d digits =>
        cases hc
        exact hdecimal c List.mem_cons_self
    refine ⟨?_, ?_⟩
    · exact eq_false_of_imp_false isDecimal_of_isCapital hdigit
    · intro heq
      subst heq
      cases hdigit
  have hanchor : ∀ c ∈ ((if rowAnchored then ['$'] else []) ++ (digits ++ rest)).head?,
      isCapital c = false := by
    cases rowAnchored with
    | true =>
      intro c hc
      cases hc
      decide
    | false => exact fun c hc => (hhead c hc).1
  -- Without an anchor the spelling starts with a letter, which is no dollar sign.
  have hfront : ∀ c ∈
      (letters ++ ((if rowAnchored then ['$'] else []) ++ (digits ++ rest))).head?, c ≠ '$' := by
    cases letters with
    | nil => exact absurd rfl hletters
    | cons d letters =>
      intro c hc heq
      subst heq
      cases hc
      have hd := hcapital '$' List.mem_cons_self
      cases hd
  unfold take? spelling
  simp only [List.append_assoc, splitAnchor_anchor columnAnchored hfront,
    takeWhile_append_of_head letters hanchor, dropWhile_append_of_head letters hanchor,
    List.takeWhile_eq_self_iff.mpr hcapital, List.dropWhile_eq_nil_iff.mpr hcapital,
    List.nil_append, splitAnchor_anchor rowAnchored fun c hc => (hhead c hc).2,
    takeWhile_append_of_head digits hrest, dropWhile_append_of_head digits hrest,
    List.takeWhile_eq_self_iff.mpr hdecimal, List.dropWhile_eq_nil_iff.mpr hdecimal]
  rw [if_neg (by simp [hletters, hdigits])]

theorem take?_spelling {r : Reference} (h : r.WellFormed) : take? r.spelling = some (r, []) := by
  have htake : take? (r.spelling ++ []) = some (r, []) :=
    take?_spelling_append h (by rintro c ⟨⟩)
  rw [List.append_nil] at htake
  exact htake

theorem getLast?_spelling {r : Reference} (h : r.WellFormed) :
    r.spelling.getLast? = r.digits.getLast? := by
  unfold spelling
  rw [List.getLast?_append_of_ne_nil _ h.digits_ne_nil]

theorem mem_spelling {r : Reference} (h : r.WellFormed) {c : Char} (hc : c ∈ r.spelling) :
    c = '$' ∨ isCapital c = true ∨ isDecimal c = true := by
  simp only [spelling, List.mem_append] at hc
  rcases hc with ((hanchor | hletter) | hanchor) | hdigit
  · split at hanchor
    · exact Or.inl (List.mem_singleton.mp hanchor)
    · cases hanchor
  · exact Or.inr (Or.inl (h.isCapital_letters c hletter))
  · split at hanchor
    · exact Or.inl (List.mem_singleton.mp hanchor)
    · cases hanchor
  · exact Or.inr (Or.inr (h.isDecimal_digits c hdigit))

/-- A reference without dollar signs has no anchors. -/
theorem anchors_of_notMem {r : Reference} (h : '$' ∉ r.spelling) :
    r.columnAnchored = false ∧ r.rowAnchored = false := by
  obtain ⟨columnAnchored, letters, rowAnchored, digits⟩ := r
  constructor
  · cases columnAnchored with
    | true => exact absurd List.mem_cons_self h
    | false => rfl
  · cases rowAnchored with
    | true => exact absurd (by simp [spelling]) h
    | false => rfl

theorem isNamePart_of_mem_spelling {r : Reference} (h : r.WellFormed) {c : Char}
    (hc : c ∈ r.spelling) : isNamePart c = true := by
  rcases mem_spelling h hc with rfl | hcapital | hdecimal
  · rfl
  · exact isNamePart_of_isCapital hcapital
  · exact isNamePart_of_isDecimal hdecimal

theorem WellFormed.exists_decimal {r : Reference} (h : r.WellFormed) :
    ∃ d ∈ r.spelling, isDecimal d = true := by
  obtain ⟨d, ds, hdigits⟩ := List.exists_cons_of_ne_nil h.digits_ne_nil
  refine ⟨d, ?_, h.isDecimal_digits d (by simp [hdigits])⟩
  simp [spelling, hdigits]

theorem head?_spelling {r : Reference} (h : r.WellFormed) :
    ∃ c cs, r.spelling = c :: cs ∧ (c = '$' ∨ isCapital c = true) := by
  obtain ⟨columnAnchored, letters, rowAnchored, digits⟩ := r
  cases columnAnchored with
  | true => exact ⟨'$', _, rfl, Or.inl rfl⟩
  | false =>
    cases letters with
    | nil => exact absurd rfl h.letters_ne_nil
    | cons d letters =>
      exact ⟨d, _, rfl, Or.inr (h.isCapital_letters d List.mem_cons_self)⟩

theorem ofSpelling?_spelling {r : Reference} (h : r.WellFormed) :
    ofSpelling? r.spelling = some r := by
  -- A line break at the end would be dropped, but a reference ends with a digit.
  have hlast : r.spelling.getLast? ≠ some '\n' := by
    intro hnewline
    rw [getLast?_spelling h] at hnewline
    have hdigit := h.isDecimal_digits '\n' (List.mem_of_getLast? hnewline)
    cases hdigit
  unfold ofSpelling? dropFinalNewline
  rw [if_neg hlast, take?_spelling h]

theorem address?_eq_ofSpelling? {r : Reference} (h : r.WellFormed) :
    r.address? = Address.ofSpelling? r.spelling := by
  unfold Address.ofSpelling?
  rw [ofSpelling?_spelling h, Option.bind_some]

end Reference

theorem isReference_spelling {r : Reference} (h : r.WellFormed) :
    isReference r.spelling = true := by
  unfold isReference
  rw [Reference.ofSpelling?_spelling h]
  rfl

/-- A reference is spelled with letters and digits, up to a line break at its end. -/
theorem exists_wellFormed_of_isReference {cs : List Char} (h : isReference cs = true) :
    ∃ r : Reference, r.WellFormed ∧ r.spelling = dropFinalNewline cs := by
  obtain ⟨r, hr⟩ := Option.isSome_iff_exists.mp h
  unfold Reference.ofSpelling? at hr
  split at hr
  · rename_i r' htake
    cases hr
    have happend := Reference.take?_append htake
    rw [List.append_nil] at happend
    exact ⟨r, Reference.wellFormed_of_take? htake, happend⟩
  · cases hr

/-! ## Texts in quotes -/

theorem isNameStart_of_start {c : Char} (h : c = '$' ∨ isCapital c = true) :
    isNameStart c = true := by
  rcases h with rfl | hcapital
  · rfl
  · exact isNameStart_of_isCapital hcapital

theorem isNamePart_of_start {c : Char} (h : c = '$' ∨ isCapital c = true) :
    isNamePart c = true :=
  isNamePart_of_isNameStart (isNameStart_of_start h)

theorem isDigit_of_start {c : Char} (h : c = '$' ∨ isCapital c = true) :
    (isDigit c || c = '.') = false := by
  rcases h with rfl | hcapital
  · decide
  · have hpoint : c ≠ '.' := by
      rintro rfl
      cases hcapital
    simp [isDigit_of_isCapital hcapital, hpoint]

/-- Without a line break at its end a text starts with the character that it started with. -/
theorem dropFinalNewline_cons {c : Char} (hc : c ≠ '\n') (cs : List Char) :
    ∃ ds, dropFinalNewline (c :: cs) = c :: ds := by
  unfold dropFinalNewline
  split
  · rename_i hlast
    cases cs with
    | nil => exact absurd (Option.some.inj hlast) hc
    | cons d ds => exact ⟨(d :: ds).dropLast, rfl⟩
  · exact ⟨cs, rfl⟩

theorem ne_newline_of_isMark {q : Char} (hq : isMark q = true) : q ≠ '\n' := by
  rintro rfl
  cases hq

/-- A reference starts with a dollar sign or with a letter of its column. -/
theorem start_of_isReference {c : Char} {cs : List Char} (h : isReference (c :: cs) = true) :
    c = '$' ∨ isCapital c = true := by
  obtain ⟨r, hform, hspelling⟩ := exists_wellFormed_of_isReference h
  obtain ⟨d, ds, hcons, hd⟩ := Reference.head?_spelling hform
  rw [hcons] at hspelling
  unfold dropFinalNewline at hspelling
  split at hspelling
  · cases cs with
    | nil => cases hspelling
    | cons e es =>
      obtain ⟨rfl, -⟩ := List.cons.inj hspelling
      exact hd
  · obtain ⟨rfl, -⟩ := List.cons.inj hspelling
    exact hd

theorem isReference_of_isMark {q : Char} {cs : List Char} (hq : isMark q = true) :
    isReference (q :: cs) = false := by
  rw [← Bool.not_eq_true]
  intro hreference
  rw [isMark_of_isNamePart (isNamePart_of_start (start_of_isReference hreference))] at hq
  cases hq

theorem isNumeral_of_isMark {q : Char} {cs : List Char} (hq : isMark q = true) :
    isNumeral (q :: cs) = false := by
  obtain ⟨ds, hds⟩ := dropFinalNewline_cons (ne_newline_of_isMark hq) cs
  unfold isNumeral
  rw [hds]
  simp only [isMark, Bool.or_eq_true, decide_eq_true_eq] at hq
  -- A mark is neither a sign nor a digit nor a point.
  rcases hq with rfl | rfl <;> rfl

/-! ## Moved references -/

namespace Reference

/-- A reference that has moved and has not left the sheet is spelled with a column and a row. -/
theorem shifted_eq_ok {r : Reference} {rows columns : Int} {moved : List Char}
    (h : r.shifted rows columns = .ok moved) (hvalid : moved ≠ invalidReference) :
    ∃ (a : Address) (c : Column) (row : Nat) (digits : List Char),
      r.address? = some a ∧ 0 < row ∧
      (row : Int) = (if a.rowAnchored then (a.row : Int) else a.row + rows) ∧
      (c.index : Int) = (if a.columnAnchored then (a.column.index : Int)
        else a.column.index + columns) ∧
      digits = Nat.toDigits 10 row ∧ digits.length ≤ maxDigits ∧
      moved = spelling ⟨a.columnAnchored, c.label, a.rowAnchored, digits⟩ := by
  unfold shifted at h
  split at h
  · cases h
    exact absurd rfl hvalid
  · rename_i a ha
    dsimp only at h
    -- A row below 1, a column off the sheet and a row of too many digits are ruled out in turn.
    generalize hrow : (if a.rowAnchored then (a.row : Int) else a.row + rows) = row at h
    generalize hcolumn : (if a.columnAnchored then (a.column.index : Int)
      else a.column.index + columns) = column at h
    split at h
    · cases h
      exact absurd rfl hvalid
    · rename_i hpos
      split at h
      · cases h
        exact absurd rfl hvalid
      · rename_i c hc
        split at h
        · cases h
        · rename_i digits hdigits
          cases h
          have hnonneg : 0 ≤ row := by omega
          have hlist := integerText?_eq_some hnonneg hdigits
          refine ⟨a, c, row.toNat, digits.toList, ha, by omega, ?_, ?_, hlist, ?_, rfl⟩
          · rw [hrow]
            exact Int.toNat_of_nonneg hnonneg
          · rw [hcolumn]
            exact Column.index_of_ofInt? hc
          · rw [hlist]
            exact length_toDigits_of_integerText? hnonneg hdigits

theorem anchors_of_address? {r : Reference} {a : Address} (h : r.address? = some a) :
    a.columnAnchored = r.columnAnchored ∧ a.rowAnchored = r.rowAnchored := by
  unfold address? at h
  split at h
  · cases h
  · split at h
    · cases h
    · cases h
      exact ⟨rfl, rfl⟩

/-- A reference without dollar signs moves by all rows and columns. -/
theorem shifted_of_notMem {r : Reference} {rows columns : Int} {moved : List Char}
    (hdollar : '$' ∉ r.spelling) (h : r.shifted rows columns = .ok moved)
    (hvalid : moved ≠ invalidReference) :
    ∃ (a : Address) (c : Column) (row : Nat), r.address? = some a ∧ 0 < row ∧
      (row : Int) = a.row + rows ∧ (c.index : Int) = a.column.index + columns ∧
      (Nat.toDigits 10 row).length ≤ maxDigits ∧
      moved = spelling ⟨false, c.label, false, Nat.toDigits 10 row⟩ := by
  obtain ⟨hcolumn, hrow⟩ := anchors_of_notMem hdollar
  obtain ⟨a, c, row, digits, haddress, hpos, hrows, hcolumns, rfl, hdigits, hmoved⟩ :=
    shifted_eq_ok h hvalid
  obtain ⟨hacolumn, harow⟩ := anchors_of_address? haddress
  rw [harow, hrow, if_neg Bool.false_ne_true] at hrows
  rw [hacolumn, hcolumn, if_neg Bool.false_ne_true] at hcolumns
  rw [hacolumn, hcolumn, harow, hrow] at hmoved
  exact ⟨a, c, row, haddress, hpos, hrows, hcolumns, hdigits, hmoved⟩

theorem wellFormed_label (columnAnchored rowAnchored : Bool) (c : Column) (row : Nat) :
    WellFormed ⟨columnAnchored, c.label, rowAnchored, Nat.toDigits 10 row⟩ where
  letters_ne_nil := c.label_ne_nil
  digits_ne_nil := Nat.toDigits_ne_nil
  isCapital_letters _ := Column.isCapital_of_mem_label
  isDecimal_digits _ h := isDecimal_of_isPlainDigit (isPlainDigit_of_mem_toDigits h)

end Reference

end Spreadsheet
