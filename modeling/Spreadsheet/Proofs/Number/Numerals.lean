import Spreadsheet.Proofs.Formula.Lexing
import Spreadsheet.Proofs.Number.Literals
import Spreadsheet.Proofs.Results

/-!
# The spelling of numbers

A numeral is a sign, digits with a point among them, before them or behind them, and a power of ten. A
text counts as a number if it is the spelling of a numeral, and as the number of this numeral: a whole
number if there is neither a point nor a power, else the nearest double. Only a whole number of too many
digits is spelled and not read.
-/

namespace Spreadsheet

open Text

structure IsNumber (ds : List Char) : Prop where
  ne_nil : ds ≠ []
  isDecimal : ∀ c ∈ ds, isDecimal c = true

def signText : Option Bool → List Char
  | none => []
  | some true => ['-']
  | some false => ['+']

def signedValue (sign : Option Bool) (digits : List Char) : Int :=
  if sign = some true then -(decimalValue digits : Int) else decimalValue digits

structure Power where
  letter : Char
  sign : Option Bool
  digits : List Char

namespace Power

structure WellFormed (p : Power) : Prop where
  letter_eq : p.letter = 'e' ∨ p.letter = 'E'
  isNumber_digits : IsNumber p.digits

def spelling (p : Power) : List Char :=
  p.letter :: (signText p.sign ++ p.digits)

def value (p : Power) : Int := signedValue p.sign p.digits

end Power

/-- The parts of a number as they are written. There is a point if the fraction is not missing, though
the fraction may have no digits. -/
structure Numeral where
  sign : Option Bool
  whole : List Char
  fraction : Option (List Char)
  power : Option Power

def pointText : Option (List Char) → List Char
  | none => []
  | some fs => '.' :: fs

namespace Numeral

def fractionDigits (n : Numeral) : List Char := n.fraction.getD []

structure WellFormed (n : Numeral) : Prop where
  isDecimal_whole : ∀ c ∈ n.whole, isDecimal c = true
  isDecimal_fraction : ∀ c ∈ n.fractionDigits, isDecimal c = true
  digits_ne_nil : n.whole ++ n.fractionDigits ≠ []
  wellFormed_power : ∀ p ∈ n.power, p.WellFormed

def spelling (n : Numeral) : List Char :=
  signText n.sign ++ (n.whole ++ (pointText n.fraction ++ n.power.elim [] Power.spelling))

def decimal (n : Numeral) : Decimal :=
  ⟨n.sign == some true, decimalValue (n.whole ++ n.fractionDigits),
    n.power.elim 0 Power.value - n.fractionDigits.length⟩

def isWhole (n : Numeral) : Bool := n.fraction.isNone && n.power.isNone

def value (n : Numeral) : Number :=
  if n.isWhole then .integer (signedValue n.sign n.whole) else .double n.decimal.toDouble

end Numeral

/-! ## Taking numerals apart -/

theorem splitSign_append (sign : Option Bool) {cs : List Char}
    (h : ∀ c ∈ cs.head?, c ≠ '-' ∧ c ≠ '+') :
    splitSign (signText sign ++ cs) = (sign == some true, cs) := by
  match sign with
  | some true => rfl
  | some false => rfl
  | none =>
    show splitSign cs = (false, cs)
    unfold splitSign
    split
    · exact absurd rfl (h '-' rfl).1
    · exact absurd rfl (h '+' rfl).2
    · rfl

theorem exists_sign (cs : List Char) :
    ∃ sign, cs = signText sign ++ (splitSign cs).2 ∧ (splitSign cs).1 = (sign == some true) := by
  unfold splitSign
  split
  · exact ⟨some true, rfl, rfl⟩
  · exact ⟨some false, rfl, rfl⟩
  · exact ⟨none, rfl, rfl⟩

theorem splitFraction_append {fraction : Option (List Char)} {rest : List Char}
    (hfraction : ∀ c ∈ fraction.getD [], isDecimal c = true)
    (hrest : ∀ c ∈ rest.head?, isDecimal c = false ∧ c ≠ '.') :
    splitFraction (pointText fraction ++ rest) = (fraction.getD [], rest) := by
  match fraction with
  | none =>
    show splitFraction rest = ([], rest)
    unfold splitFraction
    split
    · exact absurd rfl (hrest '.' rfl).2
    · rfl
  | some fs =>
    have hhead : ∀ c ∈ rest.head?, isDecimal c = false := fun c hc => (hrest c hc).1
    have hdigits : ∀ c ∈ fs, isDecimal c = true := hfraction
    show ((fs ++ rest).takeWhile isDecimal, (fs ++ rest).dropWhile isDecimal) = _
    rw [takeWhile_append_of_head fs hhead, dropWhile_append_of_head fs hhead,
      List.takeWhile_eq_self_iff.mpr hdigits, List.dropWhile_eq_nil_iff.mpr hdigits]
    rfl

theorem exists_fraction (cs : List Char) :
    ∃ fraction, cs = pointText fraction ++ (splitFraction cs).2 ∧
      (splitFraction cs).1 = fraction.getD [] ∧ ∀ c ∈ fraction.getD [], isDecimal c = true := by
  unfold splitFraction
  split
  · rename_i ds
    refine ⟨some (ds.takeWhile isDecimal), ?_, rfl, fun _ => List.mem_takeWhile_imp⟩
    show '.' :: ds = '.' :: (ds.takeWhile isDecimal ++ ds.dropWhile isDecimal)
    rw [List.takeWhile_append_dropWhile]
  · exact ⟨none, rfl, rfl, nofun⟩

theorem isDecimal_of_isSign {c : Char} (h : c = '-' ∨ c = '+') : isDecimal c = false := by
  rcases h with rfl | rfl <;> rfl

/-- Nothing that starts with a digit or a point starts with a sign. -/
theorem ne_sign_of_isDecimal {c : Char} (h : isDecimal c = true ∨ c = '.') : c ≠ '-' ∧ c ≠ '+' := by
  rw [← not_or]
  intro hsign
  rcases h with hdecimal | rfl
  · rw [isDecimal_of_isSign hsign] at hdecimal
    cases hdecimal
  · revert hsign
    decide

theorem Power.WellFormed.exponent?_spelling {p : Power} (h : p.WellFormed) :
    exponent? p.spelling = some p.value := by
  have hdigits := h.isNumber_digits
  have hhead : ∀ c ∈ p.digits.head?, c ≠ '-' ∧ c ≠ '+' := fun c hc =>
    ne_sign_of_isDecimal (.inl (hdigits.isDecimal c (List.mem_of_head? hc)))
  unfold Power.spelling exponent?
  dsimp only
  rw [splitSign_append p.sign hhead]
  dsimp only
  rw [if_pos (by simpa [hdigits.ne_nil, h.letter_eq] using hdigits.isDecimal)]
  unfold Power.value signedValue
  simp only [beq_iff_eq]

theorem exists_power_of_exponent? {c : Char} {cs : List Char} {e : Int}
    (h : exponent? (c :: cs) = some e) :
    ∃ p : Power, p.WellFormed ∧ c :: cs = p.spelling ∧ e = p.value := by
  obtain ⟨sign, hcs, hsign⟩ := exists_sign cs
  unfold exponent? at h
  dsimp only at h
  split at h
  · rename_i hpower
    simp only [Bool.and_eq_true, Bool.or_eq_true, decide_eq_true_eq, Bool.not_eq_true',
      List.isEmpty_eq_false_iff, List.all_eq_true] at hpower
    obtain ⟨⟨hletter, hne⟩, hdigits⟩ := hpower
    have he : e = signedValue sign (splitSign cs).2 := by
      rw [← Option.some.inj h, hsign]
      cases sign with
      | none => rfl
      | some negative => cases negative <;> rfl
    exact ⟨⟨c, sign, (splitSign cs).2⟩, ⟨hletter, hne, hdigits⟩, congrArg (c :: ·) hcs, he⟩
  · cases h

/-- What stands behind the digits is nothing or a power of ten. -/
theorem exponent?_eq_some_iff {cs : List Char} {e : Int} :
    exponent? cs = some e ↔ ∃ power : Option Power, (∀ p ∈ power, p.WellFormed) ∧
      cs = power.elim [] Power.spelling ∧ e = power.elim 0 Power.value := by
  constructor
  · intro h
    cases cs with
    | nil =>
      cases h
      exact ⟨none, nofun, rfl, rfl⟩
    | cons c cs =>
      obtain ⟨p, hp, hcs, he⟩ := exists_power_of_exponent? h
      refine ⟨some p, ?_, hcs, he⟩
      rintro _ ⟨⟩
      exact hp
  · rintro ⟨_ | p, hp, rfl, rfl⟩
    · rfl
    · exact (hp p rfl).exponent?_spelling

namespace Numeral

variable {n : Numeral}

/-- What stands behind the digits of a numeral starts with a letter. -/
theorem WellFormed.letter_power (h : n.WellFormed) :
    ∀ c ∈ (n.power.elim [] Power.spelling).head?, c = 'e' ∨ c = 'E' := by
  intro c hc
  cases hpower : n.power with
  | none =>
    rw [hpower] at hc
    cases hc
  | some p =>
    rw [hpower] at hc
    obtain rfl : p.letter = c := Option.some.inj hc
    exact (h.wellFormed_power p hpower).letter_eq

theorem WellFormed.head?_power (h : n.WellFormed) :
    ∀ c ∈ (n.power.elim [] Power.spelling).head?, isDecimal c = false ∧ c ≠ '.' := by
  intro c hc
  rcases h.letter_power c hc with rfl | rfl <;> decide

theorem WellFormed.head?_fraction (h : n.WellFormed) :
    ∀ c ∈ (pointText n.fraction ++ n.power.elim [] Power.spelling).head?, isDecimal c = false := by
  intro c hc
  cases hfraction : n.fraction with
  | none =>
    rw [hfraction] at hc
    exact (h.head?_power c hc).1
  | some fs =>
    rw [hfraction] at hc
    cases hc
    rfl

theorem WellFormed.head?_body (h : n.WellFormed) :
    ∀ c ∈ (n.whole ++ (pointText n.fraction ++ n.power.elim [] Power.spelling)).head?,
      c ≠ '-' ∧ c ≠ '+' := by
  intro c hc
  apply ne_sign_of_isDecimal
  cases hwhole : n.whole with
  | cons d ds =>
    rw [hwhole] at hc
    cases hc
    exact .inl (h.isDecimal_whole c (hwhole ▸ List.mem_cons_self))
  | nil =>
    rw [hwhole] at hc
    cases hfraction : n.fraction with
    | none => exact absurd (by simp [fractionDigits, hwhole, hfraction]) h.digits_ne_nil
    | some fs =>
      rw [hfraction] at hc
      cases hc
      exact .inr rfl

theorem WellFormed.ofSpelling?_spelling (h : n.WellFormed) :
    Decimal.ofSpelling? n.spelling = some n.decimal := by
  have hempty : (n.whole.isEmpty && n.fractionDigits.isEmpty) = false := by
    have hne := h.digits_ne_nil
    rw [← Bool.not_eq_true]
    simpa using hne
  have hexponent : exponent? (n.power.elim [] Power.spelling) = some (n.power.elim 0 Power.value) :=
    exponent?_eq_some_iff.mpr ⟨n.power, h.wellFormed_power, rfl, rfl⟩
  unfold spelling Decimal.ofSpelling?
  dsimp only
  -- Each part ends where the next one starts, so the reader cuts where the numeral was put together.
  rw [splitSign_append n.sign h.head?_body]
  dsimp only
  rw [takeWhile_append_of_head n.whole h.head?_fraction,
    dropWhile_append_of_head n.whole h.head?_fraction,
    List.takeWhile_eq_self_iff.mpr h.isDecimal_whole,
    List.dropWhile_eq_nil_iff.mpr h.isDecimal_whole, List.nil_append,
    splitFraction_append h.isDecimal_fraction h.head?_power]
  dsimp only
  rw [hexponent, if_neg (by simpa [fractionDigits] using hempty)]
  rfl

theorem exists_of_ofSpelling? {cs : List Char} {d : Decimal} (h : Decimal.ofSpelling? cs = some d) :
    ∃ n : Numeral, n.WellFormed ∧ cs = n.spelling ∧ d = n.decimal := by
  obtain ⟨sign, hcs, hsign⟩ := exists_sign cs
  obtain ⟨fraction, hbody, hfraction, hdecimal⟩ :=
    exists_fraction ((splitSign cs).2.dropWhile isDecimal)
  unfold Decimal.ofSpelling? at h
  dsimp only at h
  split at h
  · cases h
  · rename_i hne
    obtain ⟨e, he, rfl⟩ := Option.map_eq_some_iff.mp h
    obtain ⟨power, hpower, hrest, rfl⟩ := exponent?_eq_some_iff.mp he
    -- An empty mantissa is what the screen on the digits refuses.
    have hnumeral : Numeral.WellFormed ⟨sign, (splitSign cs).2.takeWhile isDecimal, fraction, power⟩ := by
      refine ⟨fun _ => List.mem_takeWhile_imp, hdecimal, fun hnil => hne ?_, hpower⟩
      have hnone : (splitSign cs).2.takeWhile isDecimal = [] ∧ fraction.getD [] = [] :=
        List.append_eq_nil_iff.mp hnil
      rw [hnone.1, hfraction, hnone.2]
      rfl
    refine ⟨_, hnumeral, ?_, ?_⟩
    · unfold spelling
      dsimp only
      rw [← hrest, ← hbody, List.takeWhile_append_dropWhile]
      exact hcs
    · unfold decimal fractionDigits
      dsimp only
      rw [hsign, hfraction]

end Numeral

/-! ## Plain spellings -/

def InNumeral (c : Char) : Prop :=
  isDecimal c = true ∨ c ∈ ['-', '+', '.', 'e', 'E']

theorem InNumeral.plainForm {c : Char} (h : InNumeral c) :
    isBlank (plainForm c) = false ∧ Spreadsheet.plainForm c ≠ '_' := by
  rcases h with hdecimal | hmark
  · have hplain := (plainForm_of_isDecimal hdecimal).1
    exact ⟨isBlank_of_isPlainDigit hplain, ne_of_isPlainDigit hplain rfl⟩
  · simp only [List.mem_cons, List.not_mem_nil, or_false] at hmark
    rcases hmark with rfl | rfl | rfl | rfl | rfl <;> decide

theorem InNumeral.isSpace {c : Char} (h : InNumeral c) : isSpace c = false := by
  rcases h with hdecimal | hmark
  · exact isSpace_of_isNamePart (isNamePart_of_isDecimal hdecimal)
  · simp only [List.mem_cons, List.not_mem_nil, or_false] at hmark
    rcases hmark with rfl | rfl | rfl | rfl | rfl <;> rfl

theorem isDecimal_of_mem_map {ds : List Char} (h : ∀ c ∈ ds, isDecimal c = true) :
    ∀ c ∈ ds.map plainForm, isDecimal c = true := by
  refine List.forall_mem_map.mpr fun c hc => ?_
  have hdecimal := h c hc
  unfold isDecimal at hdecimal ⊢
  rwa [(plainForm_of_isDecimal (h c hc)).2]

theorem map_plainForm_signText (sign : Option Bool) :
    (signText sign).map plainForm = signText sign := by
  match sign with
  | none => rfl
  | some true => rfl
  | some false => rfl

theorem inNumeral_of_mem_signText {sign : Option Bool} {c : Char} (h : c ∈ signText sign) :
    InNumeral c := by
  right
  match sign with
  | some true => simp_all [signText]
  | some false => simp_all [signText]

namespace Power

variable {p : Power}

theorem WellFormed.inNumeral (h : p.WellFormed) : ∀ c ∈ p.spelling, InNumeral c := by
  intro c hc
  rcases List.mem_cons.mp hc with rfl | hc
  · right
    rcases h.letter_eq with hletter | hletter <;> simp [hletter]
  · rcases List.mem_append.mp hc with hsign | hdigit
    · exact inNumeral_of_mem_signText hsign
    · exact .inl (h.isNumber_digits.isDecimal c hdigit)

def plain (p : Power) : Power := { p with digits := p.digits.map plainForm }

theorem WellFormed.plain (h : p.WellFormed) : p.plain.WellFormed where
  letter_eq := h.letter_eq
  isNumber_digits :=
    ⟨by simpa [Power.plain] using h.isNumber_digits.ne_nil,
      isDecimal_of_mem_map h.isNumber_digits.isDecimal⟩

theorem WellFormed.spelling_plain (h : p.WellFormed) : p.plain.spelling = p.spelling.map plainForm := by
  have hletter : plainForm p.letter = p.letter := by
    rcases h.letter_eq with hletter | hletter <;> rw [hletter] <;> rfl
  simp [spelling, Power.plain, hletter, map_plainForm_signText]

theorem WellFormed.value_plain (h : p.WellFormed) : p.plain.value = p.value := by
  unfold value signedValue
  show (if p.sign = some true then -(decimalValue (p.digits.map plainForm) : Int)
    else decimalValue (p.digits.map plainForm)) = _
  rw [decimalValue_map_plainForm h.isNumber_digits.isDecimal]

end Power

namespace Numeral

variable {n : Numeral}

theorem WellFormed.inNumeral (h : n.WellFormed) : ∀ c ∈ n.spelling, InNumeral c := by
  intro c hc
  simp only [spelling, List.mem_append] at hc
  rcases hc with hsign | hwhole | hfraction | hpower
  · exact inNumeral_of_mem_signText hsign
  · exact .inl (h.isDecimal_whole c hwhole)
  · have hdigits := h.isDecimal_fraction
    unfold fractionDigits at hdigits
    cases hn : n.fraction with
    | none =>
      rw [hn] at hfraction
      cases hfraction
    | some fs =>
      rw [hn] at hfraction hdigits
      rcases List.mem_cons.mp hfraction with rfl | hdigit
      · exact .inr (by decide)
      · exact .inl (hdigits c hdigit)
  · cases hn : n.power with
    | none =>
      rw [hn] at hpower
      cases hpower
    | some p =>
      rw [hn] at hpower
      exact (h.wellFormed_power p hn).inNumeral c hpower

def plain (n : Numeral) : Numeral where
  sign := n.sign
  whole := n.whole.map plainForm
  fraction := n.fraction.map (List.map plainForm)
  power := n.power.map Power.plain

theorem fractionDigits_plain (n : Numeral) : n.plain.fractionDigits = n.fractionDigits.map plainForm := by
  unfold fractionDigits plain
  cases n.fraction <;> rfl

theorem WellFormed.plain (h : n.WellFormed) : n.plain.WellFormed where
  isDecimal_whole := isDecimal_of_mem_map h.isDecimal_whole
  isDecimal_fraction := by
    rw [fractionDigits_plain]
    exact isDecimal_of_mem_map h.isDecimal_fraction
  digits_ne_nil := by
    rw [fractionDigits_plain]
    show n.whole.map plainForm ++ n.fractionDigits.map plainForm ≠ []
    rw [← List.map_append]
    exact fun hnil => h.digits_ne_nil (List.map_eq_nil_iff.mp hnil)
  wellFormed_power := by
    intro p hp
    obtain ⟨q, hq, rfl⟩ := Option.map_eq_some_iff.mp hp
    exact (h.wellFormed_power q hq).plain

theorem WellFormed.spelling_plain (h : n.WellFormed) : n.plain.spelling = n.spelling.map plainForm := by
  have hpoint : pointText n.plain.fraction = (pointText n.fraction).map plainForm := by
    unfold Numeral.plain
    cases n.fraction <;> rfl
  have hpower : n.plain.power.elim [] Power.spelling =
      (n.power.elim [] Power.spelling).map plainForm := by
    unfold Numeral.plain
    cases hn : n.power with
    | none => rfl
    | some p => exact (h.wellFormed_power p hn).spelling_plain
  unfold spelling
  rw [hpoint, hpower]
  simp [Numeral.plain, map_plainForm_signText]

theorem WellFormed.decimal_plain (h : n.WellFormed) : n.plain.decimal = n.decimal := by
  have hdigits : decimalValue (n.plain.whole ++ n.plain.fractionDigits) =
      decimalValue (n.whole ++ n.fractionDigits) := by
    rw [fractionDigits_plain]
    show decimalValue (n.whole.map plainForm ++ n.fractionDigits.map plainForm) = _
    rw [← List.map_append, decimalValue_map_plainForm]
    exact List.forall_mem_append.mpr ⟨h.isDecimal_whole, h.isDecimal_fraction⟩
  have hpower : n.plain.power.elim 0 Power.value = n.power.elim 0 Power.value := by
    unfold Numeral.plain
    cases hn : n.power with
    | none => rfl
    | some p => exact (h.wellFormed_power p hn).value_plain
  unfold decimal
  rw [hdigits, hpower, fractionDigits_plain, List.length_map]
  rfl

/-! ## Reading -/

theorem WellFormed.plainSpelling_eq (h : n.WellFormed) :
    plainSpelling (String.ofList n.spelling) = n.plain.spelling := by
  rw [h.spelling_plain]
  exact plainSpelling_of_isBlank fun c hc => (h.inNumeral c hc).plainForm.1

theorem WellFormed.readDouble_eq (h : n.WellFormed) :
    readDouble (String.ofList n.spelling) = .ok n.decimal.toDouble := by
  have hungrouped : ungrouped? ' ' n.plain.spelling = some n.plain.spelling := by
    apply ungrouped?_of_ne (by decide)
    rw [h.spelling_plain]
    exact List.forall_mem_map.mpr fun c hc => (h.inNumeral c hc).plainForm.2
  unfold readDouble
  rw [h.plainSpelling_eq, hungrouped, Option.bind_some, h.plain.ofSpelling?_spelling, h.decimal_plain]

theorem spelling_of_isWhole (hwhole : n.isWhole = true) : n.spelling = signText n.sign ++ n.whole := by
  simp only [isWhole, Bool.and_eq_true, Option.isNone_iff_eq_none] at hwhole
  unfold spelling
  rw [hwhole.1, hwhole.2]
  simp [pointText]

theorem WellFormed.whole_ne_nil (h : n.WellFormed) (hwhole : n.isWhole = true) : n.whole ≠ [] := by
  simp only [isWhole, Bool.and_eq_true, Option.isNone_iff_eq_none] at hwhole
  have hdigits := h.digits_ne_nil
  unfold fractionDigits at hdigits
  rw [hwhole.1] at hdigits
  simpa using hdigits

theorem WellFormed.readInteger_eq (h : n.WellFormed) (hwhole : n.isWhole = true) :
    readInteger (String.ofList n.spelling) =
      if maxDigits < n.whole.length then .error (.tooManyDigits n.whole.length)
      else .ok (signedValue n.sign n.whole) := by
  have htext : splitSign (plainSpelling (String.ofList n.spelling)) =
      (n.sign == some true, n.whole.map plainForm) := by
    rw [h.plainSpelling_eq, spelling_of_isWhole (n := n.plain) (by simpa [isWhole, Numeral.plain] using hwhole)]
    refine splitSign_append n.sign fun c hc => ne_sign_of_isDecimal (.inl ?_)
    exact isDecimal_of_mem_map h.isDecimal_whole c (List.mem_of_head? hc)
  rw [readInteger_of_splitSign (h.whole_ne_nil hwhole) h.isDecimal_whole htext]
  simp only [signedValue, beq_iff_eq]

def IsTooLong (n : Numeral) : Prop := n.isWhole = true ∧ maxDigits < n.whole.length

/-- A point or the letter of an exponent shows that a numeral is not whole. -/
theorem WellFormed.any_mark (h : n.WellFormed) :
    (n.spelling.any fun c => c = '.' || c = 'e' || c = 'E') = !n.isWhole := by
  -- A point or an exponent letter is what makes a numeral a double.
  cases hwhole : n.isWhole with
  | true =>
    have hsign : ((signText n.sign).any fun c => c = '.' || c = 'e' || c = 'E') = false := by
      match n.sign with
      | none => rfl
      | some true => rfl
      | some false => rfl
    rw [spelling_of_isWhole hwhole, List.any_append, hsign, any_mark_of_isDecimal h.isDecimal_whole]
    rfl
  | false =>
    rw [Bool.not_false, List.any_eq_true]
    unfold spelling
    cases hfraction : n.fraction with
    | some fs => exact ⟨'.', by simp [pointText], rfl⟩
    | none =>
      cases hpower : n.power with
      | none => simp [isWhole, hfraction, hpower] at hwhole
      | some p =>
        refine ⟨p.letter, by simp [Power.spelling], ?_⟩
        simpa [or_assoc] using Or.inr (h.wellFormed_power p hpower).letter_eq

theorem WellFormed.read_of_isTooLong (h : n.WellFormed) (hlong : n.IsTooLong) :
    Number.read (String.ofList n.spelling) = .error (.tooManyDigits n.whole.length) := by
  unfold Number.read
  rw [String.toList_ofList, h.any_mark, hlong.1, h.readInteger_eq hlong.1, if_pos hlong.2]
  rfl

theorem WellFormed.read_of_not_isTooLong (h : n.WellFormed) (hshort : ¬ n.IsTooLong) :
    Number.read (String.ofList n.spelling) = .ok n.value := by
  unfold Number.read value
  rw [String.toList_ofList, h.any_mark, h.readDouble_eq]
  cases hwhole : n.isWhole with
  | false => rfl
  | true =>
    rw [h.readInteger_eq hwhole, if_neg fun hlength => hshort ⟨hwhole, hlength⟩]
    rfl

end Numeral

/-- Exactly the spellings of numerals count as numbers, if no line break follows. -/
theorem isNumeral_iff {cs : List Char} (h : cs.getLast? ≠ some '\n') :
    isNumeral cs = true ↔ ∃ n : Numeral, n.WellFormed ∧ cs = n.spelling := by
  unfold isNumeral dropFinalNewline
  rw [if_neg h, Option.isSome_iff_exists]
  constructor
  · rintro ⟨d, hd⟩
    obtain ⟨n, hn, hcs, -⟩ := Numeral.exists_of_ofSpelling? hd
    exact ⟨n, hn, hcs⟩
  · rintro ⟨n, hn, rfl⟩
    exact ⟨n.decimal, hn.ofSpelling?_spelling⟩

theorem Numeral.WellFormed.isNumeral_spelling {n : Numeral} (h : n.WellFormed) :
    isNumeral n.spelling = true := by
  refine (isNumeral_iff fun hlast => ?_).mpr ⟨n, h, rfl⟩
  have hspace := (h.inNumeral '\n' (List.mem_of_getLast? hlast)).isSpace
  cases hspace

/-! ## Digits that are no decimal digits -/

/-- Nothing but underscores is dropped between digits. -/
theorem mem_of_ungrouped? {previous c : Char} {cs ds : List Char}
    (h : ungrouped? previous cs = some ds) (hc : c ∈ cs) (hne : c ≠ '_') : c ∈ ds := by
  -- Only underscores are dropped, and the character before decides no more than whether there is a
  -- result.
  induction cs generalizing previous ds with
  | nil => cases hc
  | cons d cs ih =>
    unfold ungrouped? at h
    split at h
    · rename_i hd
      split at h
      · exact ih h ((List.mem_cons.mp hc).resolve_left fun heq => hne (heq.trans hd))
      · cases h
    · split at h
      · cases h
      · obtain ⟨es, hes, rfl⟩ := Option.map_eq_some_iff.mp h
        rcases List.mem_cons.mp hc with rfl | hmem
        · exact List.mem_cons_self
        · exact List.mem_cons_of_mem _ (ih hes hmem)

theorem notMem_plainSpelling_of_readDouble {text : String} {x : Double}
    (h : readDouble text = .ok x) : '?' ∉ plainSpelling text := by
  intro hmem
  unfold readDouble at h
  split at h
  · rename_i d hd
    obtain ⟨ds, hds, hspelling⟩ := Option.bind_eq_some_iff.mp hd
    obtain ⟨n, hn, rfl, -⟩ := Numeral.exists_of_ofSpelling? hspelling
    rcases hn.inNumeral '?' (mem_of_ungrouped? hds hmem (by decide)) with hdecimal | hmark
    · cases hdecimal
    · revert hmark
      decide
  · cases h

theorem notMem_plainSpelling_of_readInteger {text : String} {i : Int}
    (h : readInteger text = .ok i) : '?' ∉ plainSpelling text := by
  intro hmem
  obtain ⟨sign, hspelling, -⟩ := exists_sign (plainSpelling text)
  unfold readInteger at h
  dsimp only at h
  split at h
  · cases h
  · split at h
    · cases h
    · split at h
      · cases h
      · rename_i hrest
        -- Behind the sign there is nothing but digits and underscores.
        have hbody : ((splitSign (plainSpelling text)).2.dropWhile fun c => isPlainDigit c || c = '_') = [] := by
          simp only [Bool.not_eq_true, Bool.or_eq_false_iff, Bool.not_eq_false'] at hrest
          exact List.isEmpty_iff.mp hrest.2
        rw [hspelling] at hmem
        rcases List.mem_append.mp hmem with hsign | hdigits
        · rcases inNumeral_of_mem_signText hsign with hdecimal | hmark
          · cases hdecimal
          · revert hmark
            decide
        · cases List.dropWhile_eq_nil_iff.mp hbody '?' hdigits

/-- The digits of a text that is read as a number are decimal digits. -/
theorem isDecimal_of_read {text : String} {n : Number} (h : Number.read text = .ok n) :
    ∀ c ∈ text.toList, isDigit c = true → isDecimal c = true := by
  have hforeign : '?' ∉ plainSpelling text := by
    unfold Number.read at h
    split at h
    · obtain ⟨x, hx, -⟩ := map_eq_ok h
      exact notMem_plainSpelling_of_readDouble hx
    · obtain ⟨i, hi, -⟩ := map_eq_ok h
      exact notMem_plainSpelling_of_readInteger hi
  intro c hc hdigit
  by_contra hdecimal
  have hplain := plainForm_of_not_isDecimal hdigit (Bool.not_eq_true _ ▸ hdecimal)
  have hmem := mem_plainSpelling hc (by rw [hplain]; rfl)
  rw [hplain] at hmem
  exact hforeign hmem

end Spreadsheet
