import Mathlib.Data.Char
import Mathlib.Data.List.Shortlex
import Spreadsheet.Proofs.Reference.Destination

/-!
# Columns and their labels go together

In the notation to the base 26 without a zero every row of capital letters is the label of one number, so
a column and its label determine each other. A longer label has the greater number, and of two labels of
one length the one that comes later in the alphabet.
-/

namespace Spreadsheet

open Text

namespace Column

/-! ## Rows of capital letters -/

theorem exists_letter_of_isCapital {c : Char} (h : isCapital c = true) : ∃ n < 26, c = letter n := by
  obtain ⟨hlo, hhi⟩ := toNat_of_isCapital h
  have hsum : 'A'.toNat + (c.toNat - 0x41) = c.toNat := Nat.add_sub_cancel' hlo
  refine ⟨c.toNat - 0x41, by omega, ?_⟩
  unfold letter
  rw [hsum, Char.ofNat_toNat]

theorem exists_append_letter {cs : List Char} (h : ∀ c ∈ cs, isCapital c = true) (hne : cs ≠ []) :
    ∃ ds, ∃ n < 26, cs = ds ++ [letter n] ∧ ∀ d ∈ ds, isCapital d = true := by
  rcases List.eq_nil_or_concat' cs with rfl | ⟨ds, c, rfl⟩
  · exact absurd rfl hne
  · obtain ⟨hds, hc⟩ := List.forall_mem_append.mp h
    obtain ⟨n, hn, rfl⟩ := exists_letter_of_isCapital (hc c (List.mem_singleton_self c))
    exact ⟨ds, n, hn, rfl, hds⟩

theorem numberOf_pos {cs : List Char} (h : ∀ c ∈ cs, isCapital c = true) (hne : cs ≠ []) :
    0 < numberOf cs := by
  obtain ⟨ds, n, hn, rfl, -⟩ := exists_append_letter h hne
  rw [numberOf_append_letter ds hn]
  omega

theorem numberOf_le_labelCount {places : Nat} {cs : List Char} (h : ∀ c ∈ cs, isCapital c = true)
    (hlength : cs.length ≤ places) : numberOf cs ≤ labelCount places := by
  -- Letters are taken off the end, where each one is a remainder of the division by 26.
  induction places generalizing cs with
  | zero =>
    rw [List.eq_nil_of_length_eq_zero (Nat.le_zero.mp hlength)]
    exact Nat.le_refl 0
  | succ places ih =>
    by_cases hne : cs = []
    · subst hne
      exact Nat.zero_le _
    · obtain ⟨ds, n, hn, rfl, hds⟩ := exists_append_letter h hne
      rw [List.length_append, List.length_singleton] at hlength
      have hcount : labelCount (places + 1) = 26 * (labelCount places + 1) := rfl
      have hfront := ih hds (Nat.le_of_succ_le_succ hlength)
      rw [numberOf_append_letter ds hn, hcount]
      omega

/-- A row of capital letters is the label of the number that it stands for. -/
theorem letters_numberOf {places : Nat} {cs : List Char} (h : ∀ c ∈ cs, isCapital c = true)
    (hne : cs ≠ []) (hlength : cs.length ≤ places) : letters places (numberOf cs - 1) = cs := by
  -- The last letter is the remainder, and the front is the label of the quotient.
  induction places generalizing cs with
  | zero => exact absurd (List.eq_nil_of_length_eq_zero (Nat.le_zero.mp hlength)) hne
  | succ places ih =>
    obtain ⟨ds, n, hn, rfl, hds⟩ := exists_append_letter h hne
    rw [List.length_append, List.length_singleton] at hlength
    rw [numberOf_append_letter ds hn]
    unfold letters
    by_cases hfront : ds = []
    · subst hfront
      have hzero : numberOf [] = 0 := rfl
      have hindex : 26 * numberOf [] + (n + 1) - 1 = n := by omega
      rw [hindex, if_pos hn, List.nil_append]
    · -- The front is not empty, so there is a quotient to go on with.
      have hpos := numberOf_pos hds hfront
      have hquotient : (26 * numberOf ds + (n + 1) - 1) / 26 - 1 = numberOf ds - 1 := by omega
      have hremainder : (26 * numberOf ds + (n + 1) - 1) % 26 = n := by omega
      rw [if_neg (by omega), hquotient, hremainder, ih hds hfront (Nat.le_of_succ_le_succ hlength)]

theorem exists_label_iff {cs : List Char} :
    (∃ c : Column, c.label = cs) ↔ cs ≠ [] ∧ cs.length ≤ 3 ∧ ∀ c ∈ cs, isCapital c = true := by
  constructor
  · rintro ⟨c, rfl⟩
    exact ⟨c.label_ne_nil, length_letters_le 3 c.index, fun _ => isCapital_of_mem_label⟩
  · rintro ⟨hne, hlength, hcapital⟩
    have hpos := numberOf_pos hcapital hne
    have hle : numberOf cs ≤ columnCount := numberOf_le_labelCount hcapital hlength
    exact ⟨⟨numberOf cs - 1, by omega⟩, letters_numberOf hcapital hne hlength⟩

/-! ## The order of labels -/

/-- What comes first counts for more than all that follows. -/
theorem numberOf_append_lt_append {front front' cs ds : List Char}
    (hcs : ∀ c ∈ cs, isCapital c = true) (hds : ∀ d ∈ ds, isCapital d = true)
    (hlength : cs.length = ds.length) (h : numberOf front < numberOf front') :
    numberOf (front ++ cs) < numberOf (front' ++ ds) := by
  -- The fronts grow by one letter each. One that is less stays so, whatever the letters are.
  induction cs generalizing front front' ds with
  | nil =>
    rw [List.eq_nil_of_length_eq_zero hlength.symm, List.append_nil, List.append_nil]
    exact h
  | cons c cs ih =>
    cases ds with
    | nil => cases hlength
    | cons d ds =>
      obtain ⟨hc, hcs'⟩ := List.forall_mem_cons.mp hcs
      obtain ⟨hd, hds'⟩ := List.forall_mem_cons.mp hds
      obtain ⟨m, hm, rfl⟩ := exists_letter_of_isCapital hc
      obtain ⟨n, hn, rfl⟩ := exists_letter_of_isCapital hd
      have hnext : numberOf (front ++ [letter m]) < numberOf (front' ++ [letter n]) := by
        rw [numberOf_append_letter front hm, numberOf_append_letter front' hn]
        omega
      rw [List.append_cons, List.append_cons front']
      exact ih hcs' hds' (Nat.succ.inj hlength) hnext

theorem numberOf_lt_of_lex (front : List Char) {cs ds : List Char}
    (hcs : ∀ c ∈ cs, isCapital c = true) (hds : ∀ d ∈ ds, isCapital d = true)
    (hlength : cs.length = ds.length) (h : List.Lex (· < ·) cs ds) :
    numberOf (front ++ cs) < numberOf (front ++ ds) := by
  -- Equal letters move over to the front. From the first difference on the order is settled.
  induction h generalizing front with
  | nil => cases hlength
  | @cons c cs ds _ ih =>
    rw [List.append_cons, List.append_cons front c ds]
    exact ih (front ++ [c]) (List.forall_mem_cons.mp hcs).2 (List.forall_mem_cons.mp hds).2
      (Nat.succ.inj hlength)
  | @rel c cs d ds hlt =>
    obtain ⟨hc, hcs'⟩ := List.forall_mem_cons.mp hcs
    obtain ⟨hd, hds'⟩ := List.forall_mem_cons.mp hds
    obtain ⟨m, hm, rfl⟩ := exists_letter_of_isCapital hc
    obtain ⟨n, hn, rfl⟩ := exists_letter_of_isCapital hd
    have hletters : (letter m).toNat < (letter n).toNat := UInt32.lt_iff_toNat_lt.mp hlt
    rw [toNat_letter hm, toNat_letter hn] at hletters
    have hnext : numberOf (front ++ [letter m]) < numberOf (front ++ [letter n]) := by
      rw [numberOf_append_letter front hm, numberOf_append_letter front hn]
      omega
    rw [List.append_cons, List.append_cons front (letter n) ds]
    exact numberOf_append_lt_append hcs' hds' (Nat.succ.inj hlength) hnext

theorem numberOf_lt_of_shortlex {cs ds : List Char} (hcs : ∀ c ∈ cs, isCapital c = true)
    (hds : ∀ d ∈ ds, isCapital d = true) (h : List.Shortlex (· < ·) cs ds) :
    numberOf cs < numberOf ds := by
  rcases List.shortlex_def.mp h with hshorter | ⟨hlength, hlex⟩
  · -- The longer row is a front, which counts for something, and a row as long as the shorter one.
    obtain ⟨front, back, rfl, hback⟩ : ∃ front back, ds = front ++ back ∧ cs.length = back.length :=
      ⟨ds.take (ds.length - cs.length), ds.drop (ds.length - cs.length),
        (List.take_append_drop _ ds).symm, by rw [List.length_drop]; omega⟩
    obtain ⟨hfront, hbacks⟩ := List.forall_mem_append.mp hds
    have hne : front ≠ [] := by
      rintro rfl
      rw [List.nil_append, hback] at hshorter
      exact absurd hshorter (Nat.lt_irrefl _)
    show numberOf ([] ++ cs) < numberOf (front ++ back)
    exact numberOf_append_lt_append hcs hbacks hback (numberOf_pos hfront hne)
  · exact numberOf_lt_of_lex [] hcs hds hlength hlex

theorem index_lt_of_shortlex {c d : Column} (h : List.Shortlex (· < ·) c.label d.label) :
    c.index < d.index := by
  have hlt := numberOf_lt_of_shortlex (fun _ => isCapital_of_mem_label)
    (fun _ => isCapital_of_mem_label) h
  have hc : numberOf c.label = c.index + 1 := numberOf_letters c.index_lt
  have hd : numberOf d.label = d.index + 1 := numberOf_letters d.index_lt
  omega

theorem eq_of_label_eq {c d : Column} (h : c.label = d.label) : c = d := by
  have hread := c.ofLabel?_label
  rw [h, d.ofLabel?_label] at hread
  exact (Option.some.inj hread).symm

theorem index_lt_iff {c d : Column} :
    c.index < d.index ↔ List.Shortlex (· < ·) c.label d.label := by
  refine ⟨fun h => ?_, index_lt_of_shortlex⟩
  rcases Std.Trichotomous.rel_or_eq_or_rel_swap (r := List.Shortlex (· < ·)) (a := c.label) (b := d.label)
    with hbefore | heq | hbehind
  · exact hbefore
  · rw [eq_of_label_eq heq] at h
    exact absurd h (Nat.lt_irrefl _)
  · exact absurd (index_lt_of_shortlex hbehind) (Nat.lt_asymm h)

/-! ## Labels of indices and indices of labels -/

theorem ofCapitals?_eq_some_iff {cs : List Char} {c : Column} (hlength : cs.length ≤ 3) :
    ofCapitals? cs = some c ↔ c.label = cs := by
  constructor
  · intro h
    have hvalid : cs ≠ [] ∧ ∀ d ∈ cs, isCapital d = true := by
      unfold ofCapitals? at h
      split at h
      · cases h
      · rename_i hrow
        simpa using hrow
    obtain ⟨d, rfl⟩ := exists_label_iff.mpr ⟨hvalid.1, hlength, hvalid.2⟩
    rw [d.ofCapitals?_label] at h
    rw [Option.some.inj h]
  · rintro rfl
    exact c.ofCapitals?_label

theorem ofLabel?_eq_some_iff {cs : List Char} {c : Column} (hbasic : ∀ d ∈ cs, d.toNat < 128) :
    ofLabel? cs = some c ↔ c.label = cs.map Char.toUpper := by
  have hsize : (cs.map Char.toUpper).length = cs.length := List.length_map Char.toUpper
  unfold ofLabel?
  by_cases hlong : 3 < cs.length
  · rw [if_pos hlong]
    refine ⟨nofun, fun h => ?_⟩
    have hlength : c.label.length ≤ 3 := length_letters_le 3 c.index
    rw [h] at hlength
    omega
  · have hlength : (cs.map Char.toUpper).length ≤ 3 := by omega
    rw [if_neg hlong, capitals_of_basic hbasic, lastThree_eq_self hlength]
    exact ofCapitals?_eq_some_iff hlength

theorem toList_toUpper (text : String) : text.toUpper.toList = text.toList.map Char.toUpper :=
  String.toList_map

theorem indexOf_eq_ok_iff {text : String} (hbasic : ∀ d ∈ text.toList, d.toNat < 128) {n : Nat} :
    indexOf text = .ok n ↔ ∃ c : Column, c.index = n ∧ c.label = text.toUpper.toList := by
  unfold indexOf
  rw [toList_toUpper]
  cases hread : ofLabel? text.toList with
  | none =>
    refine ⟨nofun, ?_⟩
    rintro ⟨c, -, hc⟩
    rw [(ofLabel?_eq_some_iff hbasic).mpr hc] at hread
    cases hread
  | some c =>
    have hc := (ofLabel?_eq_some_iff hbasic).mp hread
    constructor
    · intro h
      exact ⟨c, Except.ok.inj h, hc⟩
    · rintro ⟨d, rfl, hd⟩
      rw [eq_of_label_eq (hc.trans hd.symm)]

theorem indexOf_eq_error_iff {text : String} (hbasic : ∀ d ∈ text.toList, d.toNat < 128)
    {e : ColumnError} : indexOf text = .error e ↔
      e = .noLabel text ∧ ¬ ∃ c : Column, c.label = text.toUpper.toList := by
  unfold indexOf
  rw [toList_toUpper]
  simp only [← ofLabel?_eq_some_iff hbasic]
  cases ofLabel? text.toList with
  | none => simp [eq_comm]
  | some c => simp

theorem labelAt_of_outside {index : Int} (h : index < 0 ∨ columnCount ≤ index) :
    labelAt index = .error (.noColumn (if index < 0 then index else index + 1)) := by
  unfold labelAt
  rw [ofInt?_eq_none h]

theorem labelAt_eq_ok_iff {index : Int} {text : String} :
    labelAt index = .ok text ↔ ∃ c : Column, (c.index : Int) = index ∧ c.label = text.toList := by
  constructor
  · intro h
    by_cases houtside : index < 0 ∨ columnCount ≤ index
    · rw [labelAt_of_outside houtside] at h
      cases h
    · obtain ⟨c, -, rfl⟩ := exists_ofInt? (n := index) (by omega) (by omega)
      rw [labelAt_index] at h
      refine ⟨c, rfl, ?_⟩
      rw [← Except.ok.inj h, String.toList_ofList]
  · rintro ⟨c, rfl, hc⟩
    rw [labelAt_index, hc, String.ofList_toList]

theorem labelAt_eq_error_iff {index : Int} {e : ColumnError} :
    labelAt index = .error e ↔
      e = .noColumn (if index < 0 then index else index + 1) ∧
        (index < 0 ∨ columnCount ≤ index) := by
  by_cases houtside : index < 0 ∨ columnCount ≤ index
  · rw [labelAt_of_outside houtside]
    simp [houtside, eq_comm]
  · obtain ⟨c, -, rfl⟩ := exists_ofInt? (n := index) (by omega) (by omega)
    rw [labelAt_index]
    exact ⟨nofun, fun h => absurd h.2 houtside⟩

/-- A text of the basic range is the label of a column, up to the case of its letters, if it has one to
three letters and nothing else. -/
theorem exists_label_toUpper_iff {text : String} (hbasic : ∀ d ∈ text.toList, d.toNat < 128) :
    (∃ c : Column, c.label = text.toUpper.toList) ↔
      text ≠ "" ∧ text.length ≤ 3 ∧ ∀ d ∈ text.toList, d.isAlpha = true := by
  have hcapital : (∀ d ∈ text.toList, isCapital d.toUpper = true) ↔
      ∀ d ∈ text.toList, d.isAlpha = true :=
    forall₂_congr fun d hd => by rw [isCapital_toUpper (hbasic d hd)]
  rw [exists_label_iff, toList_toUpper, List.length_map, String.length_toList, List.forall_mem_map,
    hcapital]
  simp

end Column

/-- A column and its label determine each other. The label of a column is found for the indices from 0 to
18277, and the index of a text of the basic range if the text has one to three letters, small or capital,
and nothing else. The shorter of two labels has the smaller index, and of two labels of one length the one
that comes first in the alphabet. -/
theorem Column.indexOf_inverse_labelAt {text : String} (hbasic : ∀ d ∈ text.toList, d.toNat < 128) :
    (∀ index : Int, (∃ n : Nat, indexOf text = .ok n ∧ (n : Int) = index) ↔
      labelAt index = .ok text.toUpper) ∧
    (∀ e, indexOf text = .error e ↔ e = .noLabel text ∧
      (text = "" ∨ 3 < text.length ∨ ∃ d ∈ text.toList, d.isAlpha = false)) ∧
    (∀ (index : Int) (e : ColumnError), labelAt index = .error e ↔
      e = .noColumn (if index < 0 then index else index + 1) ∧ (index < 0 ∨ 18277 < index)) ∧
    ∀ (other : String) (m n : Nat), (∀ d ∈ other.toList, d.toNat < 128) →
      indexOf text = .ok m → indexOf other = .ok n →
      (m < n ↔ text.length < other.length ∨
        text.length = other.length ∧ text.toUpper < other.toUpper) := by
  refine ⟨fun index => ?_, fun e => ?_, fun index e => ?_, fun other m n hother hm hn => ?_⟩
  · rw [labelAt_eq_ok_iff]
    simp only [indexOf_eq_ok_iff hbasic]
    constructor
    · rintro ⟨n, ⟨c, rfl, hc⟩, rfl⟩
      exact ⟨c, rfl, hc⟩
    · rintro ⟨c, rfl, hc⟩
      exact ⟨c.index, ⟨c, rfl, hc⟩, rfl⟩
  · rw [indexOf_eq_error_iff hbasic, exists_label_toUpper_iff hbasic]
    simp only [not_and_or, not_not, not_forall, Nat.not_le, Bool.not_eq_true, exists_prop, ne_eq]
  · have hcount : (columnCount : Int) = 18278 := rfl
    have hbeyond : (columnCount : Int) ≤ index ↔ 18277 < index := by omega
    rw [labelAt_eq_error_iff, hbeyond]
  · obtain ⟨c, rfl, hc⟩ := (indexOf_eq_ok_iff hbasic).mp hm
    obtain ⟨d, rfl, hd⟩ := (indexOf_eq_ok_iff hother).mp hn
    -- Columns are ordered as their labels are: by length first, then letter by letter.
    rw [index_lt_iff, List.shortlex_def, hc, hd, List.lex_lt, ← String.lt_iff]
    simp only [toList_toUpper, List.length_map, String.length_toList]

/-- `ZZ` in any letters is the last label of two letters, and `ZZZ` is the last one of all. -/
theorem Column.indexOf_inverse_labelAt_zz :
    indexOf "zZ" = .ok 701 ∧ indexOf "aAa" = .ok 702 ∧ 701 < 702 ∧
      labelAt 701 = .ok "zZ".toUpper ∧ labelAt 18278 = .error (.noColumn 18279) := by
  have hzz : indexOf "zZ" = .ok 701 := by decide +kernel
  have haaa : indexOf "aAa" = .ok 702 := by decide +kernel
  have hbasic : ∀ d ∈ "zZ".toList, d.toNat < 128 := by simp
  obtain ⟨hlabel, -, herror, horder⟩ := indexOf_inverse_labelAt hbasic
  refine ⟨hzz, haaa, ?_, (hlabel 701).mp ⟨701, hzz, rfl⟩, (herror 18278 _).mpr (by decide)⟩
  exact (horder "aAa" 701 702 (by simp) hzz haaa).mpr (Or.inl (by decide))

end Spreadsheet
