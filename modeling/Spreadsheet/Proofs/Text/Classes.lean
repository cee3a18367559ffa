import Mathlib.Data.List.TakeWhile
import Spreadsheet.Formula.Lexer
import Spreadsheet.Reference.Shift

/-!
# How the classes of characters lie

Letters, digits, white space and the marks of formulas are told apart by their ranges, which are
compared here once. Most of the facts say that two classes have no character in common.
-/

namespace Spreadsheet.Text

theorem eq_false_of_imp {a b : Bool} (h : a = true → b = true) (hb : b = false) : a = false := by
  by_cases ha : a = true
  · rw [h ha] at hb
    cases hb
  · exact (Bool.not_eq_true a).mp ha

theorem eq_false_of_imp_false {a b : Bool} (h : a = true → b = false) (hb : b = true) :
    a = false := by
  by_cases ha : a = true
  · rw [h ha] at hb
    cases hb
  · exact (Bool.not_eq_true a).mp ha

/-! ## Runs of characters -/

section Runs

variable {p : Char → Bool}

theorem takeWhile_eq_nil_of_head {cs : List Char} (h : ∀ c ∈ cs.head?, p c = false) :
    cs.takeWhile p = [] := by
  cases cs with
  | nil => rfl
  | cons c cs => exact List.takeWhile_cons_of_neg (by simp [h c rfl])

theorem dropWhile_eq_self_of_head {cs : List Char} (h : ∀ c ∈ cs.head?, p c = false) :
    cs.dropWhile p = cs := by
  cases cs with
  | nil => rfl
  | cons c cs => exact List.dropWhile_cons_of_neg (by simp [h c rfl])

/-- A run ends where it ended before, if what is appended does not go on with it. -/
theorem takeWhile_append_of_head (cs : List Char) {rest : List Char}
    (h : ∀ c ∈ rest.head?, p c = false) : (cs ++ rest).takeWhile p = cs.takeWhile p := by
  rw [List.takeWhile_append, takeWhile_eq_nil_of_head h, List.append_nil]
  split
  · rename_i hlength
    exact ((List.takeWhile_prefix p).eq_of_length hlength).symm
  · rfl

theorem dropWhile_append_of_head (cs : List Char) {rest : List Char}
    (h : ∀ c ∈ rest.head?, p c = false) : (cs ++ rest).dropWhile p = cs.dropWhile p ++ rest := by
  rw [List.dropWhile_append, dropWhile_eq_self_of_head h]
  split
  · rename_i hempty
    rw [List.isEmpty_iff.mp hempty, List.nil_append]
  · rfl

theorem head_dropWhile (cs : List Char) : ∀ c ∈ (cs.dropWhile p).head?, p c = false := by
  intro c hc
  have hnot := List.head?_dropWhile_not p cs
  rw [Option.mem_def.mp hc] at hnot
  simpa using hnot

theorem takeWhile_takeWhile_self (cs : List Char) :
    (cs.takeWhile p).takeWhile p = cs.takeWhile p := by
  rw [List.takeWhile_takeWhile]
  simp

theorem dropWhile_takeWhile_self (cs : List Char) : (cs.takeWhile p).dropWhile p = [] :=
  List.dropWhile_eq_nil_iff.mpr fun _ => List.mem_takeWhile_imp

/-- What is not to be dropped stays. -/
theorem mem_dropWhile_of_mem {c : Char} {cs : List Char} (h : c ∈ cs) (hc : p c = false) :
    c ∈ cs.dropWhile p := by
  rw [← List.takeWhile_append_dropWhile (p := p) (l := cs)] at h
  refine (List.mem_append.mp h).resolve_left fun htake => ?_
  rw [List.mem_takeWhile_imp htake] at hc
  cases hc

/-- Nothing is dropped at the two ends of a text in which nothing is to be dropped. -/
theorem dropWhile_ends_eq_self {cs : List Char} (h : ∀ c ∈ cs, p c = false) :
    ((cs.dropWhile p).reverse.dropWhile p).reverse = cs := by
  have hhead : ∀ c ∈ cs.head?, p c = false := fun c hc => h c (List.mem_of_mem_head? hc)
  have hlast : ∀ c ∈ cs.reverse.head?, p c = false :=
    fun c hc => h c (List.mem_reverse.mp (List.mem_of_mem_head? hc))
  rw [dropWhile_eq_self_of_head hhead, dropWhile_eq_self_of_head hlast, List.reverse_reverse]

end Runs

/-! ## Ranges -/

theorem exists_range_of_inRanges {n : Nat} {ranges : List (Nat × Nat)}
    (h : inRanges n ranges = true) : ∃ range ∈ ranges, range.1 ≤ n ∧ n ≤ range.2 := by
  induction ranges with
  | nil => cases h
  | cons range ranges ih =>
    obtain ⟨lo, hi⟩ := range
    unfold inRanges at h
    split at h
    · cases h
    · rename_i hlo
      split at h
      · rename_i hhi
        exact ⟨(lo, hi), List.mem_cons_self, Nat.not_lt.mp hlo, hhi⟩
      · obtain ⟨range, hmem, hrange⟩ := ih h
        exact ⟨range, List.mem_cons_of_mem _ hmem, hrange⟩

/-- A property of all characters of the basic range is checked character by character. -/
theorem forall_of_basic {p : Char → Prop} (hall : ∀ k < 128, p (Char.ofNat k)) {c : Char}
    (h : c.toNat < 128) : p c := by
  have hc := hall c.toNat h
  rw [Char.ofNat_toNat] at hc
  exact hc

/-- A property of all characters in a range is checked character by character. -/
theorem forall_of_toNat {p : Char → Prop} (lo n : Nat) (hall : ∀ k < n, p (Char.ofNat (lo + k)))
    {c : Char} (hlo : lo ≤ c.toNat) (hhi : c.toNat < lo + n) : p c := by
  have hc := hall (c.toNat - lo) (by omega)
  have hn : lo + (c.toNat - lo) = c.toNat := by omega
  rw [hn, Char.ofNat_toNat] at hc
  exact hc

theorem forall_of_inRanges {p : Char → Bool} (ranges : List (Nat × Nat))
    (hall : ∀ range ∈ ranges, ∀ k < range.2 - range.1 + 1, p (Char.ofNat (range.1 + k)) = true)
    {c : Char} (h : inRanges c.toNat ranges = true) : p c = true := by
  obtain ⟨range, hmem, hlo, hhi⟩ := exists_range_of_inRanges h
  have hlt : c.toNat < range.1 + (range.2 - range.1 + 1) := by omega
  exact forall_of_toNat (p := fun c => p c = true) range.1 _ (hall range hmem) hlo hlt

def apart : (left right : List (Nat × Nat)) → Bool
  | [], _ => true
  | (lo, hi) :: left, right =>
    match right.dropWhile fun range => range.2 < lo with
    | [] => true
    | range :: right => hi < range.1 && apart left (range :: right)

theorem inRanges_dropWhile {n lo : Nat} (hlo : lo ≤ n) {ranges : List (Nat × Nat)}
    (h : inRanges n ranges = true) :
    inRanges n (ranges.dropWhile fun range => range.2 < lo) = true := by
  -- The ranges ascend, so those that end below `lo` stand in front.
  induction ranges with
  | nil => cases h
  | cons range ranges ih =>
    by_cases hbelow : range.2 < lo
    · -- A range below `lo` is not the one with `n`.
      rw [List.dropWhile_cons_of_pos (by simpa using hbelow)]
      unfold inRanges at h
      split at h
      · cases h
      · rw [if_neg (by omega)] at h
        exact ih h
    · rw [List.dropWhile_cons_of_neg (by simpa using hbelow)]
      exact h

theorem inRanges_eq_false_of_apart {n : Nat} {left right : List (Nat × Nat)}
    (h : apart left right = true) (hleft : inRanges n left = true) : inRanges n right = false := by
  by_contra hright
  rw [Bool.not_eq_false] at hright
  -- The two rows are gone through together. What lies below the range at hand is dropped from the
  -- other row.
  induction left generalizing right with
  | nil => cases hleft
  | cons range left ih =>
    obtain ⟨lo, hi⟩ := range
    unfold inRanges at hleft
    split at hleft
    · cases hleft
    · rename_i hlo
      have hrest := inRanges_dropWhile (Nat.not_lt.mp hlo) hright
      unfold apart at h
      split at h
      · rename_i hnil
        rw [hnil] at hrest
        cases hrest
      · rename_i range right' hcons
        rw [hcons] at hrest
        rw [Bool.and_eq_true, decide_eq_true_eq] at h
        split at hleft
        · -- The numbers up to `hi` lie below the ranges that are left.
          unfold inRanges at hrest
          rw [if_pos (by omega)] at hrest
          cases hrest
        · exact ih h.2 hleft hrest

/-! ## Plain characters -/

theorem toNat_of_isCapital {c : Char} (h : isCapital c = true) :
    0x41 ≤ c.toNat ∧ c.toNat ≤ 0x5a := by
  simp only [isCapital, Bool.and_eq_true, decide_eq_true_eq] at h
  exact ⟨UInt32.le_iff_toNat_le.mp h.1, UInt32.le_iff_toNat_le.mp h.2⟩

theorem isLetter_of_isCapital {c : Char} (h : isCapital c = true) : isLetter c = true := by
  obtain ⟨hlo, hhi⟩ := toNat_of_isCapital h
  exact inRanges_eq_true_of_mem_head hlo hhi

/-! ## Digits -/

theorem exists_zero_of_isDecimal {c : Char} (h : isDecimal c = true) :
    ∃ z ∈ zeros, z ≤ c.toNat ∧ c.toNat < z + 10 := by
  obtain ⟨n, hn⟩ := Option.isSome_iff_exists.mp h
  obtain ⟨z, hz, hvalue⟩ := Option.bind_eq_some_iff.mp hn
  have hlt := List.find?_some hz
  simp only [decide_eq_true_eq] at hlt
  split at hvalue
  · rename_i hle
    exact ⟨z, List.mem_of_find?_eq_some hz, hle, hlt⟩
  · cases hvalue

theorem inRanges_of_isDecimal {c : Char} (h : isDecimal c = true) :
    inRanges c.toNat (zeros.map fun z => (z, z + 9)) = true := by
  unfold isDecimal digitValue? at h
  -- The first zero that is not too small decides, and so does the first range.
  generalize zeros = zs at h ⊢
  induction zs with
  | nil => cases h
  | cons z zs ih =>
    rw [List.find?_cons] at h
    rw [List.map_cons]
    unfold inRanges
    by_cases hlt : c.toNat < z + 10
    · rw [decide_eq_true hlt] at h
      dsimp only [Option.bind_some] at h
      split at h
      · rename_i hle
        rw [if_neg (Nat.not_lt.mpr hle), if_pos (by omega)]
      · cases h
    · rw [decide_eq_false hlt] at h
      rw [if_neg (by omega), if_neg (by omega)]
      exact ih h

theorem isLetter_of_isDigit {c : Char} (h : isDigit c = true) : isLetter c = false := by
  have hdecimals : apart (zeros.map fun z => (z, z + 9)) letterRanges = true := by decide
  have hmarks : apart markRanges letterRanges = true := by decide
  rcases Bool.or_eq_true_iff.mp h with hdecimal | hmark
  · exact inRanges_eq_false_of_apart hdecimals (inRanges_of_isDecimal hdecimal)
  · exact inRanges_eq_false_of_apart hmarks hmark

/-- A decimal digit is one of the basic script or comes behind all marks of the basic range. -/
theorem toNat_of_isDecimal {c : Char} (h : isDecimal c = true) :
    (0x30 ≤ c.toNat ∧ c.toNat ≤ 0x39) ∨ 0x660 ≤ c.toNat := by
  obtain ⟨z, hz, hlo, hhi⟩ := exists_zero_of_isDecimal h
  have hzeros : ∀ z ∈ zeros, z = 0x30 ∨ 0x660 ≤ z := by decide
  rcases hzeros z hz with rfl | hz'
  · exact Or.inl ⟨hlo, by omega⟩
  · exact Or.inr (by omega)

theorem toNat_of_isDigit {c : Char} (h : isDigit c = true) :
    (0x30 ≤ c.toNat ∧ c.toNat ≤ 0x39) ∨ 0xb2 ≤ c.toNat := by
  rcases Bool.or_eq_true_iff.mp h with hdecimal | hmark
  · rcases toNat_of_isDecimal hdecimal with hplain | hforeign
    · exact Or.inl hplain
    · exact Or.inr (by omega)
  · obtain ⟨range, hmem, hlo, -⟩ := exists_range_of_inRanges hmark
    have hranges : ∀ range ∈ markRanges, 0xb2 ≤ range.1 := by decide
    exact Or.inr (Nat.le_trans (hranges range hmem) hlo)

theorem isDigit_of_isPlainDigit {c : Char} (h : isPlainDigit c = true) : isDigit c = true := by
  apply forall_of_inRanges [(0x30, 0x39)] (by decide)
  simp only [isPlainDigit, Bool.and_eq_true, decide_eq_true_eq] at h
  exact inRanges_eq_true_of_mem_head (UInt32.le_iff_toNat_le.mp h.1) (UInt32.le_iff_toNat_le.mp h.2)

theorem isDigit_of_isCapital {c : Char} (h : isCapital c = true) : isDigit c = false := by
  obtain ⟨hlo, hhi⟩ := toNat_of_isCapital h
  by_contra hdigit
  rcases toNat_of_isDigit (Bool.not_eq_false _ ▸ hdigit) with hplain | hforeign <;> omega

theorem isDecimal_of_isCapital {c : Char} (h : isCapital c = true) : isDecimal c = false :=
  eq_false_of_imp isDigit_of_isDecimal (isDigit_of_isCapital h)

/-! ## Capital forms -/

theorem capital_of_basic {c : Char} (h : c.toNat < 128) : capital c = [c.toUpper] := by
  have hall : ∀ k < 128, capital (Char.ofNat k) = [(Char.ofNat k).toUpper] := by decide +kernel
  exact forall_of_basic (p := fun c => capital c = [c.toUpper]) hall h

theorem capitals_of_basic {cs : List Char} (h : ∀ c ∈ cs, c.toNat < 128) :
    capitals cs = cs.map Char.toUpper := by
  induction cs with
  | nil => rfl
  | cons c cs ih =>
    obtain ⟨hc, hcs⟩ := List.forall_mem_cons.mp h
    rw [capitals_cons, capital_of_basic hc, ih hcs]
    rfl

theorem isCapital_toUpper {c : Char} (h : c.toNat < 128) : isCapital c.toUpper = c.isAlpha := by
  have hall : ∀ k < 128, isCapital (Char.ofNat k).toUpper = (Char.ofNat k).isAlpha := by
    decide +kernel
  exact forall_of_basic (p := fun c => isCapital c.toUpper = c.isAlpha) hall h

theorem toUpper_of_isDecimal {c : Char} (h : isDecimal c = true) : c.toUpper = c := by
  -- Only the small letters of the basic range have a capital form by calculation.
  have hsmall : ¬('a'.val ≤ c.val ∧ c.val ≤ 'z'.val) := by
    rintro ⟨hlo, hhi⟩
    have hlo' : 97 ≤ c.toNat := UInt32.le_iff_toNat_le.mp hlo
    have hhi' : c.toNat ≤ 122 := UInt32.le_iff_toNat_le.mp hhi
    rcases toNat_of_isDecimal h with hplain | hforeign <;> omega
  exact dif_neg hsmall

theorem capital_of_isDecimal {c : Char} (h : isDecimal c = true) : capital c = [c] := by
  -- The other capital forms are listed, and none of them is that of a digit.
  have hforms : ∀ form ∈ capitalForms, isDecimal form.1 = false := by decide
  have hlookup : capitalForms.lookup c = none := by
    rw [List.lookup_eq_none_iff]
    intro form hform
    rw [bne_iff_ne]
    intro heq
    subst heq
    rw [hforms form hform] at h
    cases h
  unfold capital
  rw [hlookup, toUpper_of_isDecimal h]

theorem mem_capitals_of_isDecimal {c : Char} {cs : List Char} (hmem : c ∈ cs)
    (h : isDecimal c = true) : c ∈ capitals cs := by
  refine List.mem_flatMap.mpr ⟨c, hmem, ?_⟩
  rw [capital_of_isDecimal h]
  exact List.mem_singleton_self c

/-! ## Names -/

open Scanned Piece

theorem isNamePart_of_isNameStart {c : Char} (h : isNameStart c = true) : isNamePart c = true := by
  simp only [isNameStart, isNamePart, Bool.or_eq_true] at h ⊢
  rcases h with (hletter | hline) | hdollar
  · exact Or.inl (Or.inl (isWord_of_isLetter hletter))
  · exact Or.inl (Or.inr hline)
  · exact Or.inr hdollar

theorem isNameStart_of_isCapital {c : Char} (h : isCapital c = true) : isNameStart c = true := by
  simp [isNameStart, isLetter_of_isCapital h]

theorem isNamePart_of_isCapital {c : Char} (h : isCapital c = true) : isNamePart c = true :=
  isNamePart_of_isNameStart (isNameStart_of_isCapital h)

theorem isNamePart_of_isDigit {c : Char} (h : isDigit c = true) : isNamePart c = true := by
  simp [isNamePart, isWord_of_isDigit h]

theorem isNamePart_of_isDecimal {c : Char} (h : isDecimal c = true) : isNamePart c = true :=
  isNamePart_of_isDigit (isDigit_of_isDecimal h)

theorem isDigit_of_isNameStart {c : Char} (h : isNameStart c = true) : isDigit c = false := by
  simp only [isNameStart, Bool.or_eq_true, decide_eq_true_eq] at h
  rcases h with (hletter | rfl) | rfl
  · exact eq_false_of_imp_false isLetter_of_isDigit hletter
  · decide
  · decide

/-- The characters that join a reference into a longer name belong to names. -/
theorem isNamePart_of_joinsBefore {c : Char} (h : joinsBefore c = true) : isNamePart c = true := by
  unfold joinsBefore isNameChar at h
  delta Char.isAlphanum Char.isAlpha Char.isUpper Char.isLower Char.isDigit at h
  simp only [Bool.or_eq_true, Bool.and_eq_true, decide_eq_true_eq] at h
  -- Capital letters, small letters, digits, the underscore and the dollar sign.
  rcases h with (((⟨hlo, hhi⟩ | ⟨hlo, hhi⟩) | ⟨hlo, hhi⟩) | rfl) | rfl
  · have hletter : isLetter c = true :=
      forall_of_inRanges [(0x41, 0x5a)] (by decide)
        (inRanges_eq_true_of_mem_head (UInt32.le_iff_toNat_le.mp hlo) (UInt32.le_iff_toNat_le.mp hhi))
    simp [isNamePart, isWord_of_isLetter hletter]
  · have hletter : isLetter c = true :=
      forall_of_inRanges [(0x61, 0x7a)] (by decide)
        (inRanges_eq_true_of_mem_head (UInt32.le_iff_toNat_le.mp hlo) (UInt32.le_iff_toNat_le.mp hhi))
    simp [isNamePart, isWord_of_isLetter hletter]
  · refine isNamePart_of_isDigit (isDigit_of_isPlainDigit ?_)
    simp only [isPlainDigit, Bool.and_eq_true, decide_eq_true_eq]
    exact ⟨hlo, hhi⟩
  · rfl
  · rfl

theorem isNamePart_of_isNameChar {c : Char} (h : isNameChar c = true) : isNamePart c = true :=
  isNamePart_of_joinsBefore (by simp [joinsBefore, h])

/-! ## Marks of quoted texts -/

theorem isNamePart_of_isMark {c : Char} (h : isMark c = true) : isNamePart c = false := by
  simp only [isMark, Bool.or_eq_true, decide_eq_true_eq] at h
  rcases h with rfl | rfl <;> decide

theorem isMark_of_isNamePart {c : Char} (h : isNamePart c = true) : isMark c = false :=
  eq_false_of_imp_false isNamePart_of_isMark h

theorem isSpace_of_isMark {c : Char} (h : isMark c = true) : isSpace c = false := by
  simp only [isMark, Bool.or_eq_true, decide_eq_true_eq] at h
  rcases h with rfl | rfl <;> decide

theorem ne_of_isNamePart {c d : Char} (h : isNamePart c = true) (hd : isNamePart d = false) :
    c ≠ d := by
  intro heq
  subst heq
  rw [h] at hd
  cases hd

theorem isSign_of_isNamePart {c : Char} (h : isNamePart c = true) : (c = '+' || c = '-') = false := by
  rw [Bool.or_eq_false_iff, decide_eq_false_iff_not, decide_eq_false_iff_not]
  exact ⟨ne_of_isNamePart h (by decide), ne_of_isNamePart h (by decide)⟩

/-! ## White space -/

/-- White space neither belongs to a name or a number nor is a mark of formulas. -/
theorem spaces_apart {c : Char} (h : isSpace c = true) :
    isNamePart c = false ∧ isMark c = false ∧ c ∉ ['.', '<', '>', '=', '+', '-', '*', '/', '(', ')', ','] := by
  have hall : (!isNamePart c && !isMark c &&
      !(['.', '<', '>', '=', '+', '-', '*', '/', '(', ')', ','].contains c)) = true :=
    @forall_of_inRanges (fun c => !isNamePart c && !isMark c &&
      !(['.', '<', '>', '=', '+', '-', '*', '/', '(', ')', ','].contains c)) spaceRanges
      (by decide +kernel) c h
  simp only [Bool.and_eq_true, Bool.not_eq_true', List.contains_eq_mem, decide_eq_false_iff_not]
    at hall
  exact ⟨hall.1.1, hall.1.2, hall.2⟩

theorem isSpace_of_isNamePart {c : Char} (h : isNamePart c = true) : isSpace c = false :=
  eq_false_of_imp_false (fun hspace => (spaces_apart hspace).1) h

end Spreadsheet.Text
