import Mathlib.Data.List.Basic
import Spreadsheet.Number.Numeral
import Spreadsheet.Proofs.Text.Classes

/-!
# Whole numbers without a sign

Decimal digits of any script, and no more of them than are allowed, are read as the number that they
write.
-/

namespace Spreadsheet

open Text

/-! ## Digits and their plain spelling -/

/-- A digit of any script has a plain spelling of the same value. -/
theorem plainForm_of_isDecimal {c : Char} (h : isDecimal c = true) :
    isPlainDigit (plainForm c) = true ∧ digitValue? (plainForm c) = digitValue? c := by
  unfold plainForm
  split
  · rename_i hbasic
    obtain ⟨hlo, hhi⟩ := (toNat_of_isDecimal h).resolve_right (by omega)
    refine ⟨?_, rfl⟩
    simp only [isPlainDigit, Bool.and_eq_true, decide_eq_true_eq]
    exact ⟨UInt32.le_iff_toNat_le.mpr hlo, UInt32.le_iff_toNat_le.mpr hhi⟩
  · obtain ⟨d, hd⟩ := Option.isSome_iff_exists.mp h
    have hplain : ∀ d < 10, isPlainDigit (Char.ofNat ('0'.toNat + d)) = true ∧
        digitValue? (Char.ofNat ('0'.toNat + d)) = some d := by decide
    simp only [isSpace_of_isNamePart (isNamePart_of_isDecimal h), Bool.false_eq_true, if_false, hd]
    exact hplain d (digitValue?_lt hd)

/-- A digit that is no decimal digit has the plain form of what stands in no number. -/
theorem plainForm_of_not_isDecimal {c : Char} (hdigit : isDigit c = true)
    (hdecimal : isDecimal c = false) : plainForm c = '?' := by
  have hforeign : ¬ c.toNat < 127 := by
    intro hbasic
    -- The digits of the basic range are decimal digits.
    obtain ⟨hlo, hhi⟩ := (toNat_of_isDigit hdigit).resolve_right (by omega)
    have hplain : isDecimal c = true :=
      forall_of_inRanges (p := isDecimal) [(0x30, 0x39)] (by decide)
        (inRanges_eq_true_of_mem_head hlo hhi)
    rw [hplain] at hdecimal
    cases hdecimal
  have hvalue : digitValue? c = none := by simpa [isDecimal] using hdecimal
  unfold plainForm
  rw [if_neg hforeign, if_neg (by simp [isSpace_of_isNamePart (isNamePart_of_isDigit hdigit)]), hvalue]

theorem ne_of_isPlainDigit {c d : Char} (hc : isPlainDigit c = true) (hd : isPlainDigit d = false) :
    c ≠ d := by
  rintro rfl
  rw [hc] at hd
  cases hd

theorem isBlank_of_isPlainDigit {c : Char} (h : isPlainDigit c = true) : isBlank c = false := by
  simp only [isPlainDigit, Bool.and_eq_true, decide_eq_true_eq] at h
  have hall : (!isBlank c) = true :=
    forall_of_inRanges (p := fun c => !isBlank c) [(0x30, 0x39)] (by decide)
      (inRanges_eq_true_of_mem_head (UInt32.le_iff_toNat_le.mp h.1) (UInt32.le_iff_toNat_le.mp h.2))
  simpa using hall

/-- Nothing is dropped from a text in which no character is a blank. -/
theorem plainSpelling_of_isBlank {cs : List Char} (h : ∀ c ∈ cs, isBlank (plainForm c) = false) :
    plainSpelling (String.ofList cs) = cs.map plainForm := by
  unfold plainSpelling
  rw [String.toList_ofList]
  exact dropWhile_ends_eq_self (List.forall_mem_map.mpr h)

/-- What is no blank stays in the plain spelling. -/
theorem mem_plainSpelling {text : String} {c : Char} (h : c ∈ text.toList)
    (hblank : isBlank (plainForm c) = false) : plainForm c ∈ plainSpelling text := by
  have hfront := mem_dropWhile_of_mem (List.mem_map_of_mem (f := plainForm) h) hblank
  exact List.mem_reverse.mpr (mem_dropWhile_of_mem (List.mem_reverse.mpr hfront) hblank)

theorem plainSpelling_of_isDecimal {digits : List Char} (h : ∀ c ∈ digits, isDecimal c = true) :
    plainSpelling (String.ofList digits) = digits.map plainForm :=
  plainSpelling_of_isBlank fun c hc => isBlank_of_isPlainDigit (plainForm_of_isDecimal (h c hc)).1

theorem decimalValue_map_plainForm {digits : List Char} (h : ∀ c ∈ digits, isDecimal c = true) :
    decimalValue (digits.map plainForm) = decimalValue digits := by
  unfold decimalValue
  rw [List.foldl_map]
  exact List.foldl_ext _ _ _ fun n c hc => by rw [(plainForm_of_isDecimal (h c hc)).2]

theorem ungrouped?_of_ne {previous : Char} {cs : List Char} (hprevious : previous ≠ '_')
    (h : ∀ c ∈ cs, c ≠ '_') : ungrouped? previous cs = some cs := by
  induction cs generalizing previous with
  | nil => simp [ungrouped?, hprevious]
  | cons c cs ih =>
    obtain ⟨hc, hcs⟩ := List.forall_mem_cons.mp h
    simp [ungrouped?, hc, hprevious, ih hc hcs]

theorem ungrouped?_of_isPlainDigit {previous : Char} {digits : List Char} (hprevious : previous ≠ '_')
    (h : ∀ c ∈ digits, isPlainDigit c = true) : ungrouped? previous digits = some digits :=
  ungrouped?_of_ne hprevious fun c hc => ne_of_isPlainDigit (h c hc) rfl

theorem splitSign_of_isPlainDigit {digits : List Char} (h : ∀ c ∈ digits, isPlainDigit c = true) :
    splitSign digits = (false, digits) := by
  unfold splitSign
  split
  · exact absurd (h '-' List.mem_cons_self) (by decide)
  · exact absurd (h '+' List.mem_cons_self) (by decide)
  · rfl

/-! ## Reading -/

theorem isPlainDigit_of_mem_map {digits : List Char} (h : ∀ c ∈ digits, isDecimal c = true) :
    ∀ c ∈ digits.map plainForm, isPlainDigit c = true :=
  List.forall_mem_map.mpr fun c hc => (plainForm_of_isDecimal (h c hc)).1

/-- Of a sign and digits only the number of the digits can be wrong. -/
theorem readInteger_of_splitSign {text : String} {negative : Bool} {digits : List Char}
    (hne : digits ≠ []) (h : ∀ c ∈ digits, isDecimal c = true)
    (htext : splitSign (plainSpelling text) = (negative, digits.map plainForm)) :
    readInteger text =
      if maxDigits < digits.length then .error (.tooManyDigits digits.length)
      else .ok (if negative then -(decimalValue digits : Int) else decimalValue digits) := by
  have hplain := isPlainDigit_of_mem_map h
  have hrun : ∀ c ∈ digits.map plainForm, (isPlainDigit c || c = '_') = true := fun c hc => by
    simp [hplain c hc]
  have hempty : (digits.map plainForm).isEmpty = false := by
    simp [hne]
  unfold readInteger
  rw [htext]
  dsimp only
  rw [List.takeWhile_eq_self_iff.mpr hrun, List.dropWhile_eq_nil_iff.mpr hrun,
    ungrouped?_of_isPlainDigit (by decide) hplain]
  dsimp only
  rw [hempty, decimalValue_map_plainForm h, List.length_map]
  rfl

theorem readInteger_of_isDecimal {digits : List Char} (hne : digits ≠ [])
    (h : ∀ c ∈ digits, isDecimal c = true) (hlength : digits.length ≤ maxDigits) :
    readInteger (String.ofList digits) = .ok (decimalValue digits) := by
  have htext : splitSign (plainSpelling (String.ofList digits)) = (false, digits.map plainForm) := by
    rw [plainSpelling_of_isDecimal h, splitSign_of_isPlainDigit (isPlainDigit_of_mem_map h)]
  rw [readInteger_of_splitSign hne h htext, if_neg (Nat.not_lt.mpr hlength)]
  rfl

/-- Neither the point nor the letters of an exponent are digits. -/
theorem any_mark_of_isDecimal {digits : List Char} (h : ∀ c ∈ digits, isDecimal c = true) :
    (digits.any fun c => c = '.' || c = 'e' || c = 'E') = false := by
  rw [List.any_eq_false]
  intro c hc hmark
  simp only [Bool.or_eq_true, decide_eq_true_eq] at hmark
  have hdecimal := h c hc
  rcases hmark with (rfl | rfl) | rfl <;> cases hdecimal

theorem Number.read_of_isDecimal {digits : List Char} (hne : digits ≠ [])
    (h : ∀ c ∈ digits, isDecimal c = true) (hlength : digits.length ≤ maxDigits) :
    Number.read (String.ofList digits) = .ok (.integer (decimalValue digits)) := by
  unfold Number.read
  rw [String.toList_ofList, any_mark_of_isDecimal h, readInteger_of_isDecimal hne h hlength]
  rfl

end Spreadsheet
