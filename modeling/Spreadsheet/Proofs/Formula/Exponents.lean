import Spreadsheet.Proofs.Formula.Moving

/-!
# Exponents that look like references

In `1.E5` the exponent is spelled like a reference, and no character before it makes it part of a
longer name. So it moves. If its letter stays, the result is again a number. If it does not, the
result is a number and a name without an operator between them, which is no formula, or no row of
lexemes at all.
-/

namespace Spreadsheet

open Text Scanned Grammar Piece

variable {rows columns : Int}

theorem Moves.of_inert {part rest out : List Char} {previous : Option Char}
    (hpart : ∀ c ∈ part, Inert c)
    (h : Moves rows columns (piecesFrom previous (part ++ rest)) out) :
    ∃ more, out = part ++ more ∧
      Moves rows columns (piecesFrom (part.getLast?.or previous) rest) more := by
  rw [piecesFrom_append_inert rest hpart] at h
  obtain ⟨front, more, rfl, hfront, hmore⟩ := h.of_append
  rw [← split_inert hpart] at hfront
  exact ⟨more, by rw [Moves.eq_of_inert hpart hfront], hmore⟩

structure Exponential (cs mantissa letters digits : List Char) : Prop where
  eq_append : cs = mantissa ++ (letters ++ digits)
  takeMantissa_eq : takeMantissa mantissa = (mantissa, [])
  any_isDigit : mantissa.any isDigit = true
  letters_ne_nil : letters ≠ []
  isCapital_letters : ∀ c ∈ letters, isCapital c = true
  digits_ne_nil : digits ≠ []
  isDigit_digits : ∀ c ∈ digits, isDigit c = true

/-- A reference that is taken off the front of an exponent has no anchors, and digits follow it. -/
theorem takeReference?_exponent {c : Char} {sign digits rest : List Char} {r : Reference}
    (hc : c = 'e' ∨ c = 'E') (hsign : ∀ d ∈ sign, d = '+' ∨ d = '-')
    (hdigits : ∀ d ∈ digits, isDigit d = true)
    (h : takeReference? (c :: (sign ++ digits)) = some (r, rest)) :
    '$' ∉ r.spelling ∧ ∀ d ∈ rest, isDigit d = true := by
  have hinert := inert_of_mem_exponent hsign hdigits
  have hform := wellFormed_of_takeReference? h
  have happend := takeReference?_append h
  obtain ⟨d, ds, hspelling, -⟩ := Reference.head?_spelling hform
  rw [hspelling, List.cons_append] at happend
  obtain ⟨hd, hrest⟩ := List.cons.inj happend
  subst hd
  have hletter : d ≠ '$' ∧ isDecimal d = false := by
    rcases hc with rfl | rfl <;> decide
  -- The reference ends with a digit, so it is more than its letter and reaches over a sign.
  obtain ⟨f, fs, hfs⟩ : ∃ f fs, ds = f :: fs := by
    apply List.exists_cons_of_ne_nil
    intro hnil
    have hlast := Reference.getLast?_spelling hform
    rw [hspelling, hnil] at hlast
    have hdecimal := hform.isDecimal_digits d (List.mem_of_getLast? hlast.symm)
    rw [hletter.2] at hdecimal
    cases hdecimal
  have hsignless : sign = [] := by
    cases sign with
    | nil => rfl
    | cons e sign =>
      rw [hfs] at hrest
      obtain ⟨rfl, -⟩ := List.cons.inj hrest
      have hmem : f ∈ r.spelling := by simp [hspelling, hfs]
      have hpart := Reference.isNamePart_of_mem_spelling hform hmem
      rcases hsign f List.mem_cons_self with rfl | rfl <;>
        exact absurd hpart (by decide)
  constructor
  · rw [hspelling]
    intro hmem
    rcases List.mem_cons.mp hmem with heq | hmem
    · exact hletter.1 heq.symm
    · have hdollar := hinert '$' (by rw [← hrest]; exact List.mem_append_left rest hmem)
      exact hdollar.ne_dollar rfl
  · intro e he
    apply hdigits
    rw [hsignless, List.nil_append] at hrest
    rw [← hrest]
    exact List.mem_append_right ds he

/-- An exponent moves only if it is its letter and digits. -/
theorem Moves.exponent {c : Char} {sign digits out : List Char} {previous : Option Char}
    (hc : c = 'e' ∨ c = 'E') (hsign : ∀ d ∈ sign, d = '+' ∨ d = '-')
    (hdigits : ∀ d ∈ digits, isDigit d = true)
    (h : Moves rows columns (piecesFrom previous (c :: (sign ++ digits))) out) :
    out = c :: (sign ++ digits) ∨ ∃ letters more, out = letters ++ more ∧ letters ≠ [] ∧
      (∀ d ∈ letters, isCapital d = true) ∧ more ≠ [] ∧ ∀ d ∈ more, isDigit d = true := by
  have hmark : isMark c = false := by
    rcases hc with rfl | rfl <;> decide
  rcases piecesFrom_cases previous c (sign ++ digits) with ⟨literal, rest, hfound, -⟩ |
    ⟨r, rest, hfound, hpieces⟩ | hpieces
  · rw [takeLiteral?_of_isMark hmark] at hfound
    cases hfound
  · -- The letter is the column and the digits in front are the row. Other digits may follow.
    rw [hpieces] at h
    obtain ⟨hdollar, hdigit⟩ := takeReference?_exponent hc hsign hdigits hfound
    cases h with
    | reference hshifted hvalid hmore =>
      obtain ⟨a, column, row, -, -, -, -, -, hout⟩ :=
        Reference.shifted_of_notMem hdollar hshifted hvalid
      rw [Moves.eq_of_inert (fun e he => inert_of_isDigit (hdigit e he)) hmore, hout]
      refine Or.inr ⟨column.label, Nat.toDigits 10 row ++ rest, ?_, column.label_ne_nil,
        fun _ => Column.isCapital_of_mem_label, ?_, ?_⟩
      · simp [Reference.spelling]
      · simp [Nat.toDigits_ne_nil]
      · intro e he
        rcases List.mem_append.mp he with he | he
        · exact isDigit_of_isPlainDigit (isPlainDigit_of_mem_toDigits he)
        · exact hdigit e he
  · rw [hpieces] at h
    obtain ⟨more, rfl, hmore⟩ := h.of_verbatim
    rw [Moves.eq_of_inert (inert_of_mem_exponent hsign hdigits) hmore]
    exact Or.inl rfl

/-- A number stays as it is, or letters and digits come into the place of its exponent. -/
theorem Moves.number {l : Lexeme} {spelling out : List Char}
    (hs : Scanned.number spelling = .ok ⟨l, spelling, []⟩)
    (h : Moves rows columns (split spelling) out) :
    out = spelling ∨ ∃ mantissa letters digits, Exponential out mantissa letters digits := by
  obtain ⟨exponent, -, hany, hexponent, -, hspelling, -⟩ := number_eq_ok_iff.mp hs
  have hself := takeMantissa_self spelling
  have hinert := inert_of_mem_mantissa spelling
  dsimp only at hspelling hexponent
  generalize (takeMantissa spelling).1 = mantissa at hany hspelling hself hinert
  -- The mantissa stays where it is, so only the exponent is left to look at.
  rw [hspelling] at h
  obtain ⟨more, rfl, hmore⟩ := Moves.of_inert hinert h
  rcases takeExponent_cases hexponent with rfl | ⟨c, sign, digits, hc, rfl, hsign, -, hdigits⟩
  · cases hmore
    exact Or.inl hspelling.symm
  · rcases hmore.exponent hc hsign hdigits with rfl | ⟨letters, more, rfl, hletters, hcapital,
      hne, hdigit⟩
    · exact Or.inl hspelling.symm
    · exact Or.inr ⟨mantissa, letters, more, rfl, hself, hany, hletters, hcapital, hne, hdigit⟩

namespace Exponential

variable {cs mantissa letters digits : List Char}

theorem head_letters (h : Exponential cs mantissa letters digits) (rest : List Char) :
    ∀ c ∈ (letters ++ rest).head?, isDigit c = false ∧ c ≠ '.' := by
  intro c hc
  obtain ⟨d, ds, hletters⟩ := List.exists_cons_of_ne_nil h.letters_ne_nil
  rw [hletters] at hc
  cases hc
  have hcapital := h.isCapital_letters c (by simp [hletters])
  refine ⟨isDigit_of_isCapital hcapital, ?_⟩
  intro heq
  subst heq
  cases hcapital

theorem takeMantissa_append (h : Exponential cs mantissa letters digits) (rest : List Char) :
    takeMantissa (mantissa ++ (letters ++ rest)) = (mantissa, letters ++ rest) := by
  rw [takeMantissa_append_of_head mantissa (h.head_letters rest), h.takeMantissa_eq,
    List.nil_append]

/-- With its own letter an exponent is read as before. -/
theorem spells (h : Exponential cs mantissa letters digits) (hletters : letters = ['E']) :
    (Lexeme.number (String.ofList cs)).Spells cs := by
  have hfront := h.takeMantissa_append digits
  obtain ⟨rfl, -, hany, -, -, hne, hdigits⟩ := h
  subst hletters
  have hexponent : takeExponent (['E'] ++ digits) = .ok ('E' :: digits, []) := by
    obtain ⟨d, ds, rfl⟩ := List.exists_cons_of_ne_nil hne
    have hpart := isNamePart_of_isDigit (hdigits d List.mem_cons_self)
    have hsign : takeSign (d :: ds) = ([], d :: ds) := by
      simp only [takeSign, isSign_of_isNamePart hpart, Bool.false_eq_true, if_false]
    rw [List.singleton_append]
    simp only [takeExponent, hsign, List.takeWhile_eq_self_iff.mpr hdigits,
      List.dropWhile_eq_nil_iff.mpr hdigits]
    rfl
  apply Lexeme.spells_of_number
  rw [number_eq_ok_iff, hfront]
  exact ⟨'E' :: digits, by simp, hany, hexponent, by simp, rfl, rfl⟩

theorem takeExponent_error {d : Char} (hd : isCapital d = true) (ds : List Char) :
    takeExponent ('E' :: d :: ds) = .error .missingExponent := by
  simp only [takeExponent, takeSign, isSign_of_isNamePart (isNamePart_of_isCapital hd),
    Bool.false_eq_true, if_false, List.takeWhile_cons, isDigit_of_isCapital hd]
  rfl

/-- The mantissa is read as the front of a number, and what follows it as its exponent. -/
theorem front_of_lexed (h : Exponential cs mantissa letters digits) {rest : List Char}
    {ms : List Lexeme} (hlexed : Lexed (cs ++ rest) ms) :
    ∃ l ms' exponent left, ms = l :: ms' ∧ l.isOperand = true ∧
      takeExponent (letters ++ (digits ++ rest)) = .ok (exponent, left) ∧ Lexed left ms' := by
  have hfront := h.takeMantissa_append (digits ++ rest)
  have hmantissa := takeMantissa_chars mantissa
  rw [h.takeMantissa_eq] at hmantissa
  have hany := h.any_isDigit
  rw [h.eq_append] at hlexed
  cases mantissa with
  | nil => cases hany
  | cons m mantissa' =>
    rw [List.append_assoc, List.append_assoc, List.cons_append] at hlexed
    rw [List.cons_append] at hfront
    -- The first character of the mantissa makes the scanner read a number.
    have hm : isMark m = false ∧ (isDigit m || m = '.') = true ∧ isSpace m = false := by
      rcases hmantissa m List.mem_cons_self with hdigit | rfl
      · have hspace := isSpace_of_isNamePart (isNamePart_of_isDigit hdigit)
        exact ⟨(inert_of_isDigit hdigit).isMark_eq, by simp [hdigit], hspace⟩
      · decide
    rcases hlexed.front with ⟨hspace, -⟩ | ⟨s, ms', rfl, hs, hrest⟩
    · rw [hm.2.2] at hspace
      cases hspace
    · rw [ofFront_of_isDigit hm.1 hm.2.1, number_eq_ok_iff, hfront] at hs
      obtain ⟨exponent, -, -, hexponent, -, -, hlexeme⟩ := hs
      exact ⟨s.lexeme, ms', exponent, s.rest, rfl, by rw [hlexeme]; rfl, hexponent, hrest⟩

/-- With other letters it is no row of lexemes that follow each other as in a formula. -/
theorem not_isChain (h : Exponential cs mantissa letters digits) (hletters : letters ≠ ['E'])
    {rest : List Char} {ms : List Lexeme} (hlexed : Lexed (cs ++ rest) ms) :
    ¬ms.IsChain Follows := by
  intro hchain
  obtain ⟨l, ms', exponent, left, rfl, hoperand, hexponent, hleft⟩ := h.front_of_lexed hlexed
  obtain ⟨c, more, rfl⟩ := List.exists_cons_of_ne_nil h.letters_ne_nil
  have hc := h.isCapital_letters c List.mem_cons_self
  by_cases hletter : c = 'E'
  · -- Behind the letter of an exponent a digit is missing.
    subst hletter
    cases more with
    | nil => exact hletters rfl
    | cons d more =>
      have hd := h.isCapital_letters d (by simp)
      simp only [List.cons_append, takeExponent_error hd] at hexponent
      cases hexponent
  · -- Without an exponent the number ends there, and a name follows it.
    have hnot : (c = 'e' || c = 'E') = false := by
      rw [Bool.or_eq_false_iff, decide_eq_false_iff_not, decide_eq_false_iff_not]
      refine ⟨?_, hletter⟩
      intro heq
      rw [heq] at hc
      cases hc
    have hcpart := isNamePart_of_isCapital hc
    simp only [List.cons_append, takeExponent, hnot, Bool.false_eq_true, if_false,
      Except.ok.injEq, Prod.mk.injEq] at hexponent
    rw [← hexponent.2] at hleft
    rcases hleft.front with ⟨hspace, -⟩ | ⟨s', ms'', rfl, hs', -⟩
    · rw [isSpace_of_isNamePart hcpart] at hspace
      cases hspace
    · -- Two operands would be neighbours.
      have hfollows := (List.isChain_cons_cons.mp hchain).1 hoperand
      rw [isOperand_of_isNamePart hs' hcpart] at hfollows
      cases hfollows.1

end Exponential

end Spreadsheet
