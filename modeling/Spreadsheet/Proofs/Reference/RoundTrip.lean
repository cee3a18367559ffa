import Spreadsheet.Proofs.Reference.Pieces

/-!
# Addresses are read back

The label of a column names this column, and the digits of a row have its value. So a reference that
has moved means the address to which it was moved.
-/

namespace Spreadsheet

open Text

/-! ## Labels of columns -/

namespace Column

def labelCount : (places : Nat) → Nat
  | 0 => 0
  | places + 1 => 26 * (labelCount places + 1)

theorem toNat_letter {n : Nat} (h : n < 26) : (letter n).toNat = 'A'.toNat + n := by
  have hall : ∀ n < 26, (letter n).toNat = 'A'.toNat + n := by decide
  exact hall n h

theorem numberOf_append_letter (cs : List Char) {n : Nat} (h : n < 26) :
    numberOf (cs ++ [letter n]) = 26 * numberOf cs + (n + 1) := by
  unfold numberOf
  rw [List.foldl_append, List.foldl_cons, List.foldl_nil, toNat_letter h, Nat.add_sub_cancel_left]

/-- A label stands for the index that it was made from, counted from 1. -/
theorem numberOf_letters {places n : Nat} (h : n < labelCount places) :
    numberOf (letters places n) = n + 1 := by
  -- One letter fewer is left for the quotient by 26.
  induction places generalizing n with
  | zero => exact absurd h (Nat.not_lt_zero n)
  | succ places ih =>
    unfold letters
    split
    · rename_i hn
      have hone := numberOf_append_letter [] hn
      rw [List.nil_append] at hone
      rw [hone]
      show 26 * 0 + (n + 1) = n + 1
      omega
    · rename_i hn
      -- The letters before the last one are the label of the quotient less 1.
      have hcount : labelCount (places + 1) = 26 * (labelCount places + 1) := rfl
      have hrest : n / 26 - 1 < labelCount places := by omega
      rw [numberOf_append_letter _ (Nat.mod_lt n (by decide)), ih hrest]
      omega

theorem length_letters_le (places n : Nat) : (letters places n).length ≤ places := by
  induction places generalizing n with
  | zero => exact Nat.le_refl 0
  | succ places ih =>
    unfold letters
    split
    · simp
    · rw [List.length_append, List.length_singleton]
      exact Nat.succ_le_succ (ih _)

theorem capital_of_isCapital {c : Char} (h : isCapital c = true) : capital c = [c] := by
  obtain ⟨hlo, hhi⟩ := toNat_of_isCapital h
  have hall : ∀ k < 26, capital (Char.ofNat (0x41 + k)) = [Char.ofNat (0x41 + k)] := by decide
  exact forall_of_toNat (p := fun c => capital c = [c]) 0x41 26 hall hlo (by omega)

theorem capitals_of_isCapital {cs : List Char} (h : ∀ c ∈ cs, isCapital c = true) :
    capitals cs = cs := by
  induction cs with
  | nil => rfl
  | cons c cs ih =>
    obtain ⟨hc, hcs⟩ := List.forall_mem_cons.mp h
    rw [capitals_cons, capital_of_isCapital hc, ih hcs]
    rfl

theorem lastThree_eq_self {cs : List Char} (h : cs.length ≤ 3) : lastThree cs = cs := by
  unfold lastThree
  rw [Nat.sub_eq_zero_of_le h, List.drop_zero]

theorem ofCapitals?_label (c : Column) : ofCapitals? c.label = some c := by
  have hcapital : ∀ d ∈ c.label, isCapital d = true := fun _ => isCapital_of_mem_label
  have hnumber : numberOf c.label = c.index + 1 := numberOf_letters c.index_lt
  unfold ofCapitals?
  rw [if_neg, hnumber, Nat.add_sub_cancel]
  · unfold ofNat?
    rw [dif_pos c.index_lt]
  · simp [c.label_ne_nil, List.all_eq_true.mpr hcapital]

/-- The column of a label is the one that has it. -/
theorem ofLabel?_label (c : Column) : ofLabel? c.label = some c := by
  have hcapital : ∀ d ∈ c.label, isCapital d = true := fun _ => isCapital_of_mem_label
  have hlength : c.label.length ≤ 3 := length_letters_le 3 c.index
  -- The label has at most three letters, so none of them is cut off.
  unfold ofLabel?
  rw [if_neg (Nat.not_lt.mpr hlength), capitals_of_isCapital hcapital, lastThree_eq_self hlength,
    c.ofCapitals?_label]

theorem ofInt?_index (c : Column) : ofInt? c.index = some c := by
  unfold ofInt? ofNat?
  rw [if_neg (by omega), Int.toNat_natCast, dif_pos c.index_lt]

theorem labelAt_index (c : Column) : labelAt c.index = .ok (String.ofList c.label) := by
  unfold labelAt
  rw [ofInt?_index]

theorem eq_of_index_eq {c d : Column} (h : (c.index : Int) = d.index) : c = d := by
  have hread := c.ofInt?_index
  rw [h, d.ofInt?_index] at hread
  exact (Option.some.inj hread).symm

end Column

/-! ## Digits of rows -/

theorem digitValue?_of_isPlainDigit {c : Char} (h : isPlainDigit c = true) :
    digitValue? c = some (c.toNat - '0'.toNat) := by
  have hall : ∀ k < 10, digitValue? (Char.ofNat (0x30 + k)) =
      some ((Char.ofNat (0x30 + k)).toNat - '0'.toNat) := by decide
  simp only [isPlainDigit, Bool.and_eq_true, decide_eq_true_eq] at h
  have hlo : 0x30 ≤ c.toNat := UInt32.le_iff_toNat_le.mp h.1
  have hhi : c.toNat ≤ 0x39 := UInt32.le_iff_toNat_le.mp h.2
  exact forall_of_toNat (p := fun c => digitValue? c = some (c.toNat - '0'.toNat)) 0x30 10 hall hlo
    (by omega)

theorem decimalValue_eq_ofDigitChars {cs : List Char} (h : ∀ c ∈ cs, isPlainDigit c = true) :
    decimalValue cs = Nat.ofDigitChars 10 cs 0 := by
  -- Both are folds over the digits. They agree from every number on.
  have hfold : ∀ n, cs.foldl (fun n c => 10 * n + (digitValue? c).getD 0) n =
      Nat.ofDigitChars 10 cs n := by
    induction cs with
    | nil => exact fun n => Nat.ofDigitChars_nil.symm
    | cons c cs ih =>
      intro n
      obtain ⟨hc, hcs⟩ := List.forall_mem_cons.mp h
      rw [List.foldl_cons, Nat.ofDigitChars_cons, digitValue?_of_isPlainDigit hc, Option.getD_some,
        ih hcs]
  exact hfold 0

theorem decimalValue_toDigits (n : Nat) : decimalValue (Nat.toDigits 10 n) = n := by
  rw [decimalValue_eq_ofDigitChars fun c hc => isPlainDigit_of_mem_toDigits hc]
  exact Nat.ofDigitChars_ten_toDigits

theorem head?_toDigits {n : Nat} (hn : 0 < n) : (Nat.toDigits 10 n).head? ≠ some '0' := by
  -- The first digit is that of the quotient, as long as there is one.
  induction n using Nat.strong_induction_on with
  | h n ih =>
    by_cases hbase : n < 10
    · have hall : ∀ n < 10, 0 < n → [n.digitChar].head? ≠ some '0' := by decide
      rw [Nat.toDigits_of_lt_base hbase]
      exact hall n hbase hn
    · have hquotient : 0 < n / 10 := by omega
      rw [Nat.toDigits_of_base_le (by decide) (by omega),
        List.head?_append_of_ne_nil _ Nat.toDigits_ne_nil]
      exact ih (n / 10) (by omega) hquotient

/-! ## Addresses -/

/-- A reference with the label of a column and the digits of a row means this column and row. -/
theorem Address.ofSpelling?_label (columnAnchored rowAnchored : Bool) (c : Column) {row : Nat}
    (h : (Nat.toDigits 10 row).length ≤ maxDigits) :
    ofSpelling? (Reference.spelling ⟨columnAnchored, c.label, rowAnchored, Nat.toDigits 10 row⟩) =
      some ⟨row, c, rowAnchored, columnAnchored⟩ := by
  unfold ofSpelling?
  rw [Reference.ofSpelling?_spelling
    (Reference.wellFormed_label columnAnchored rowAnchored c row), Option.bind_some]
  unfold Reference.address?
  dsimp only
  rw [c.ofLabel?_label]
  dsimp only
  rw [if_neg (Nat.not_lt.mpr h), decimalValue_toDigits]

end Spreadsheet
