import Spreadsheet.Evaluation
import Spreadsheet.Proofs.Formula.Joining
import Spreadsheet.Proofs.Formula.LoneTokens
import Spreadsheet.Proofs.Formula.Spacing
import Spreadsheet.Proofs.Number.Numerals

/-!
# Numbers of formulas as numerals

The scanner takes a number off a text part by part: the digits, a point with digits behind it, and a
power of ten. These are the parts of a numeral without a sign, so a text of decimal digits and other
signs is scanned as one number if and only if it counts as a number and has no sign in front. A number
of this kind that cannot be read is a whole number of too many digits. A formula of it alone is none,
and as a token it is `nan`.
-/

namespace Spreadsheet

open Text Scanned

/-! ## The parts of a number -/

namespace Scanned

theorem exists_mantissa (cs : List Char) :
    ∃ whole fraction, (takeMantissa cs).1 = whole ++ pointText fraction ∧
      (∀ c ∈ whole, isDigit c = true) ∧ ∀ c ∈ fraction.getD [], isDigit c = true := by
  unfold takeMantissa
  split
  · rename_i rest _
    exact ⟨cs.takeWhile isDigit, some (rest.takeWhile isDigit), rfl,
      fun _ => List.mem_takeWhile_imp, fun _ => List.mem_takeWhile_imp⟩
  · exact ⟨cs.takeWhile isDigit, none, (List.append_nil _).symm, fun _ => List.mem_takeWhile_imp, nofun⟩

/-- The parts of a mantissa are taken together, if what follows goes on with neither a digit nor a
point. -/
theorem takeMantissa_parts {whole rest : List Char} {fraction : Option (List Char)}
    (hwhole : ∀ c ∈ whole, isDigit c = true) (hfraction : ∀ c ∈ fraction.getD [], isDigit c = true)
    (hrest : ∀ c ∈ rest.head?, isDigit c = false ∧ c ≠ '.') :
    takeMantissa (whole ++ (pointText fraction ++ rest)) = (whole ++ pointText fraction, rest) := by
  -- The parts alone are taken whole; the rest then stays behind since it cannot extend them.
  have hself : takeMantissa (whole ++ pointText fraction) = (whole ++ pointText fraction, []) := by
    have hhead : ∀ c ∈ (pointText fraction).head?, isDigit c = false := by
      intro c hc
      cases fraction with
      | none => cases hc
      | some fs =>
        cases hc
        decide
    unfold takeMantissa
    rw [takeWhile_append_of_head whole hhead, dropWhile_append_of_head whole hhead,
      List.takeWhile_eq_self_iff.mpr hwhole, List.dropWhile_eq_nil_iff.mpr hwhole, List.nil_append]
    cases fraction with
    | none => rw [pointText, List.append_nil]
    | some fs =>
      rw [Option.getD_some] at hfraction
      simp only [pointText, List.takeWhile_eq_self_iff.mpr hfraction,
        List.dropWhile_eq_nil_iff.mpr hfraction]
  rw [← List.append_assoc, takeMantissa_append_of_head _ hrest, hself, List.nil_append]

theorem exists_sign_of_takeSign (cs : List Char) : ∃ sign, (takeSign cs).1 = signText sign := by
  cases cs with
  | nil => exact ⟨none, rfl⟩
  | cons c cs =>
    rw [takeSign]
    split
    · rename_i hsign
      rcases Bool.or_eq_true_iff.mp hsign with hplus | hminus
      · rw [of_decide_eq_true hplus]
        exact ⟨some false, rfl⟩
      · rw [of_decide_eq_true hminus]
        exact ⟨some true, rfl⟩
    · exact ⟨none, rfl⟩

theorem takeSign_signText (sign : Option Bool) {cs : List Char}
    (h : ∀ c ∈ cs.head?, c ≠ '-' ∧ c ≠ '+') : takeSign (signText sign ++ cs) = (signText sign, cs) := by
  match sign with
  | some true => rfl
  | some false => rfl
  | none =>
    cases cs with
    | nil => rfl
    | cons c cs =>
      obtain ⟨hminus, hplus⟩ := h c rfl
      simp [takeSign, signText, hminus, hplus]

/-- With decimal digits alone, what is taken as an exponent is nothing or a power of ten. -/
theorem exists_power_of_takeExponent {cs spelling rest : List Char}
    (h : takeExponent cs = .ok (spelling, rest))
    (hdecimal : ∀ c ∈ spelling, isDigit c = true → isDecimal c = true) :
    ∃ power : Option Power, (∀ p ∈ power, p.WellFormed) ∧ spelling = power.elim [] Power.spelling := by
  unfold takeExponent at h
  split at h
  · cases h
    exact ⟨none, nofun, rfl⟩
  · rename_i c cs
    split at h
    · rename_i hletter
      dsimp only at h
      split at h
      · cases h
      · rename_i hdigits
        cases h
        -- The scanner takes superscripts and the like for digits too; the assumption rules them
        -- out.
        obtain ⟨sign, hsign⟩ := exists_sign_of_takeSign cs
        refine ⟨some ⟨c, sign, (takeSign cs).2.takeWhile isDigit⟩, ?_, ?_⟩
        · rintro _ ⟨⟩
          refine ⟨by simpa using hletter, fun hnil => hdigits (List.isEmpty_iff.mpr hnil), ?_⟩
          intro d hd
          exact hdecimal d (by simp [hd]) (List.mem_takeWhile_imp hd)
        · rw [hsign]
          rfl
    · cases h
      exact ⟨none, nofun, rfl⟩

end Scanned

theorem Power.WellFormed.takeExponent_spelling {p : Power} (h : p.WellFormed) :
    takeExponent p.spelling = .ok (p.spelling, []) := by
  have hdigits := h.isNumber_digits
  have hhead : ∀ c ∈ p.digits.head?, c ≠ '-' ∧ c ≠ '+' := fun c hc =>
    ne_sign_of_isDecimal (.inl (hdigits.isDecimal c (List.mem_of_head? hc)))
  have hall : ∀ c ∈ p.digits, isDigit c = true := fun c hc => isDigit_of_isDecimal (hdigits.isDecimal c hc)
  have hletter : (p.letter = 'e' || p.letter = 'E') = true := by simpa using h.letter_eq
  unfold Power.spelling takeExponent
  dsimp only
  rw [if_pos hletter, takeSign_signText p.sign hhead]
  dsimp only
  rw [List.takeWhile_eq_self_iff.mpr hall, List.dropWhile_eq_nil_iff.mpr hall,
    if_neg (by simpa using hdigits.ne_nil), List.cons_append]

/-! ## Numbers and numerals -/

namespace Numeral

variable {n : Numeral}

/-- The scanner takes a numeral without a sign as a whole. -/
theorem WellFormed.number_spelling (h : n.WellFormed) (hsign : n.sign = none) :
    Scanned.number n.spelling = .ok ⟨.number (String.ofList n.spelling), n.spelling, []⟩ := by
  have hspelling : n.spelling = n.whole ++ (pointText n.fraction ++ n.power.elim [] Power.spelling) := by
    unfold spelling
    rw [hsign]
    rfl
  -- What follows the mantissa can extend neither its digits nor its point.
  have hhead : ∀ c ∈ (n.power.elim [] Power.spelling).head?, isDigit c = false ∧ c ≠ '.' := by
    intro c hc
    rcases h.letter_power c hc with rfl | rfl <;> decide
  have hmantissa := takeMantissa_parts (fun c hc => isDigit_of_isDecimal (h.isDecimal_whole c hc))
    (fun c hc => isDigit_of_isDecimal (h.isDecimal_fraction c hc)) hhead
  -- A mantissa needs a digit on one side of the point at least.
  have hany : (n.whole ++ pointText n.fraction).any isDigit = true := by
    obtain ⟨c, hc⟩ := List.exists_mem_of_ne_nil _ h.digits_ne_nil
    rw [List.any_eq_true]
    rcases List.mem_append.mp hc with hwhole | hfraction
    · exact ⟨c, List.mem_append_left _ hwhole, isDigit_of_isDecimal (h.isDecimal_whole c hwhole)⟩
    · refine ⟨c, List.mem_append_right _ ?_, isDigit_of_isDecimal (h.isDecimal_fraction c hfraction)⟩
      unfold fractionDigits at hfraction
      cases hn : n.fraction with
      | none =>
        rw [hn] at hfraction
        cases hfraction
      | some fs =>
        rw [hn] at hfraction
        exact List.mem_cons_of_mem _ hfraction
  have hexponent : takeExponent (n.power.elim [] Power.spelling) =
      .ok (n.power.elim [] Power.spelling, []) := by
    cases hpower : n.power with
    | none => rfl
    | some p => exact (h.wellFormed_power p hpower).takeExponent_spelling
  rw [number_eq_ok_iff, hspelling, hmantissa]
  exact ⟨_, fun hpoint => (hhead '.' hpoint).2 rfl, hany, hexponent, nofun,
    (List.append_assoc _ _ _).symm, rfl⟩

/-- What the scanner takes as a number is a numeral without a sign, unless a digit is none of the
decimal digits. -/
theorem exists_of_number {cs : List Char} {s : Scanned} (h : Scanned.number cs = .ok s)
    (hdecimal : ∀ c ∈ s.spelling, isDigit c = true → isDecimal c = true) :
    ∃ n : Numeral, n.WellFormed ∧ n.sign = none ∧ s.spelling = n.spelling := by
  obtain ⟨exponent, -, hany, hexponent, -, hspelling, -⟩ := number_eq_ok_iff.mp h
  obtain ⟨whole, fraction, hmantissa, hwhole, hfraction⟩ := exists_mantissa cs
  rw [hmantissa] at hany hspelling
  rw [hspelling] at hdecimal ⊢
  have hexponentDigits : ∀ c ∈ exponent, isDigit c = true → isDecimal c = true := fun c hc =>
    hdecimal c (List.mem_append_right _ hc)
  have hpointDigits : ∀ c ∈ fraction.getD [], isDecimal c = true := by
    intro c hc
    refine hdecimal c (List.mem_append_left _ (List.mem_append_right _ ?_)) (hfraction c hc)
    cases fraction with
    | none => cases hc
    | some fs => exact List.mem_cons_of_mem _ hc
  have hdigits : whole ++ fraction.getD [] ≠ [] := by
    intro hnil
    obtain ⟨rfl, hnone⟩ := List.append_eq_nil_iff.mp hnil
    -- A point alone is no digit.
    cases fraction with
    | none => cases hany
    | some fs =>
      obtain rfl : fs = [] := hnone
      cases hany
  obtain ⟨power, hpower, rfl⟩ := exists_power_of_takeExponent hexponent hexponentDigits
  exact ⟨⟨none, whole, fraction, power⟩,
    ⟨fun c hc => hdecimal c (List.mem_append_left _ (List.mem_append_left _ hc)) (hwhole c hc),
      hpointDigits, hdigits, hpower⟩, rfl, List.append_assoc _ _ _⟩

end Numeral

/-! ## Lone numbers -/

/-- A text is scanned as a number if and only if it is read as one from its first character to its
last. -/
theorem Token.scan_eq_number_iff {text : String} :
    Token.scan text = .ok [⟨.number text, 0⟩] ↔
      Scanned.number text.toList = .ok ⟨.number text, text.toList, []⟩ := by
  constructor
  · intro h
    exact (Token.spells_of_scan h _ List.mem_cons_self).number.2
  · intro h
    exact Token.scan_of_spells (Lexeme.spells_of_number h)

namespace Numeral

variable {n : Numeral}

/-- A numeral without a sign is a whole number if it consists of digits. -/
theorem WellFormed.isTooLong_iff (h : n.WellFormed) (hsign : n.sign = none) :
    n.IsTooLong ↔ (∀ c ∈ n.spelling, isDecimal c = true) ∧ maxDigits < n.spelling.length := by
  have hspelling (hwhole : n.isWhole = true) : n.spelling = n.whole := by
    rw [spelling_of_isWhole hwhole, hsign]
    rfl
  constructor
  · rintro ⟨hwhole, hlong⟩
    rw [hspelling hwhole]
    exact ⟨h.isDecimal_whole, hlong⟩
  · rintro ⟨hdecimal, hlong⟩
    have hmark := any_mark_of_isDecimal hdecimal
    have hwhole : n.isWhole = true := by simpa [h.any_mark] using hmark
    rw [hspelling hwhole] at hlong
    exact ⟨hwhole, hlong⟩

/-- A numeral without a sign is read, unless it has too many digits and nothing else. -/
theorem WellFormed.read_eq_error_iff (h : n.WellFormed) (hsign : n.sign = none) {e : NumeralError} :
    Number.read (String.ofList n.spelling) = .error e ↔
      ((∀ c ∈ n.spelling, isDecimal c = true) ∧ maxDigits < n.spelling.length) ∧
        e = .tooManyDigits n.spelling.length := by
  rw [← h.isTooLong_iff hsign]
  by_cases hlong : n.IsTooLong
  · have hspelling : n.spelling = n.whole := by
      rw [spelling_of_isWhole hlong.1, hsign]
      rfl
    rw [h.read_of_isTooLong hlong, hspelling, Except.error.injEq]
    exact ⟨fun heq => ⟨hlong, heq.symm⟩, fun heq => heq.2.symm⟩
  · rw [h.read_of_not_isTooLong hlong]
    exact ⟨nofun, fun heq => absurd heq.1 hlong⟩

end Numeral

/-- The numerals without a sign are the texts that count as numbers and have no sign in front. -/
theorem isNumeral_unsigned_iff {cs : List Char} (h : cs.getLast? ≠ some '\n') :
    (isNumeral cs = true ∧ cs.head? ≠ some '+' ∧ cs.head? ≠ some '-') ↔
      ∃ n : Numeral, n.WellFormed ∧ n.sign = none ∧ cs = n.spelling := by
  constructor
  · rintro ⟨hnumeral, hplus, hminus⟩
    obtain ⟨n, hn, rfl⟩ := (isNumeral_iff h).mp hnumeral
    refine ⟨n, hn, ?_, rfl⟩
    unfold Numeral.spelling at hplus hminus
    match hsign : n.sign with
    | none => rfl
    | some true => exact absurd (by rw [hsign]; rfl) hminus
    | some false => exact absurd (by rw [hsign]; rfl) hplus
  · rintro ⟨n, hn, hsign, rfl⟩
    have hhead : ∀ c ∈ n.spelling.head?, c ≠ '-' ∧ c ≠ '+' := by
      unfold Numeral.spelling
      rw [hsign]
      exact hn.head?_body
    exact ⟨(isNumeral_iff h).mpr ⟨n, hn, rfl⟩, fun hplus => (hhead '+' hplus).2 rfl,
      fun hminus => (hhead '-' hminus).1 rfl⟩

/-- A number starts like no reference. -/
theorem isReference_of_number {cs : List Char} {l : Lexeme}
    (h : Scanned.number cs = .ok ⟨l, cs, []⟩) : isReference cs = false := by
  obtain ⟨c, ds, rfl, hc⟩ := number_start h
  rw [← Bool.not_eq_true]
  intro hreference
  have hstart := isDigit_of_start (start_of_isReference hreference)
  rcases hc with hdigit | rfl
  · simp [hdigit] at hstart
  · simp at hstart

namespace Grid

variable {s : String} (hreference : isReference s.toList = false)
  (hnumeral : isNumeral s.toList = true)

include hreference hnumeral

theorem token_of_read {n : Number} (hread : Number.read s = .ok n) (g : Grid) (depth : Int) :
    g.token depth s = .number n := by
  unfold token tokenWith
  dsimp only
  rw [if_neg (by simp [hreference]), if_pos hnumeral, hread]

theorem token_of_read_error {e : NumeralError} (hread : Number.read s = .error e) (g : Grid)
    (depth : Int) : g.token depth s = .nan := by
  unfold token tokenWith
  dsimp only
  rw [if_neg (by simp [hreference]), if_pos hnumeral, hread]

end Grid

/-- A text without white space, with no digits but decimal ones, is scanned as one number if and only
if it counts as a number and has no sign in front. Such a number cannot be read if it consists of too
many digits, and only then. It is no formula in this case, and as a token it is `nan`. -/
theorem Token.scan_number_iff_isNumeral {text : String}
    (hspace : ∀ c ∈ text.toList, isSpace c = false)
    (hdecimal : ∀ c ∈ text.toList, isDigit c = true → isDecimal c = true) :
    (Token.scan text = .ok [⟨.number text, 0⟩] ↔
      isNumeral text.toList = true ∧ text.toList.head? ≠ some '+' ∧ text.toList.head? ≠ some '-') ∧
    (Token.scan text = .ok [⟨.number text, 0⟩] → ∀ e,
      (Number.read text = .error e ↔
        ((∀ c ∈ text.toList, isDecimal c = true) ∧ maxDigits < text.toList.length) ∧
          e = .tooManyDigits text.toList.length) ∧
      (Number.read text = .error e →
        Formula.parse text = .error (.badNumber 0 e) ∧
        (ParseError.badNumber 0 e).errorClass = .expression ∧
        ∀ (g : Grid) (depth : Int), g.token depth text = .nan)) := by
  -- A final newline would pass the pattern and not the scanner; white space is excluded by
  -- assumption.
  have hlast : text.toList.getLast? ≠ some '\n' := by
    intro hnewline
    have hbreak := hspace '\n' (List.mem_of_getLast? hnewline)
    cases hbreak
  have hscan : Token.scan text = .ok [⟨.number text, 0⟩] ↔
      ∃ n : Numeral, n.WellFormed ∧ n.sign = none ∧ text.toList = n.spelling := by
    rw [scan_eq_number_iff]
    constructor
    · intro h
      exact Numeral.exists_of_number h hdecimal
    · rintro ⟨n, hn, hsign, htext⟩
      have hnumber := hn.number_spelling hsign
      rwa [← htext, String.ofList_toList] at hnumber
  have hiff := hscan.trans (isNumeral_unsigned_iff hlast).symm
  refine ⟨hiff, fun h e => ⟨?_, fun hread => ⟨?_, rfl, fun g depth => ?_⟩⟩⟩
  · obtain ⟨n, hn, hsign, htext⟩ := hscan.mp h
    have hread := hn.read_eq_error_iff hsign (e := e)
    rwa [← htext, String.ofList_toList] at hread
  · rw [Formula.parse_eq_ofTokens h]
    exact Formula.ofTokens_number_error hread 0
  · have hreference := isReference_of_number (scan_eq_number_iff.mp h)
    exact Grid.token_of_read_error hreference (hiff.mp h).1 hread g depth

theorem tight_of_all (cs : List Char)
    (h : (cs.all fun c => !isSpace c && (!isDigit c || isDecimal c)) = true) :
    (∀ c ∈ cs, isSpace c = false) ∧ ∀ c ∈ cs, isDigit c = true → isDecimal c = true := by
  simp only [List.all_eq_true, Bool.and_eq_true, Bool.not_eq_true', Bool.or_eq_true] at h
  refine ⟨fun c hc => (h c hc).1, fun c hc hdigit => (h c hc).2.resolve_left ?_⟩
  rw [hdigit]
  exact Bool.noConfusion

/-- A digit of another script and a point without digits behind it, a second point, and one digit too
many. -/
theorem Token.scan_number_iff_isNumeral_samples :
    Token.scan "٣.E-07" = .ok [⟨.number "٣.E-07", 0⟩] ∧
    Token.scan "1.5.2" ≠ .ok [⟨.number "1.5.2", 0⟩] ∧
    Formula.parse (String.ofList (List.replicate 4301 '7')) =
      .error (.badNumber 0 (.tooManyDigits 4301)) ∧
    ∀ (g : Grid) (depth : Int), g.token depth (String.ofList (List.replicate 4301 '7')) = .nan := by
  have hchars : ∀ c ∈ (String.ofList (List.replicate 4301 '7')).toList, c = '7' := by
    intro c hc
    rw [String.toList_ofList] at hc
    exact List.eq_of_mem_replicate hc
  have hspace : ∀ c ∈ (String.ofList (List.replicate 4301 '7')).toList, isSpace c = false := by
    intro c hc
    rw [hchars c hc]
    rfl
  have hdecimal : ∀ c ∈ (String.ofList (List.replicate 4301 '7')).toList, isDecimal c = true := by
    intro c hc
    rw [hchars c hc]
    rfl
  have hlength : (String.ofList (List.replicate 4301 '7')).toList.length = 4301 := by
    rw [String.toList_ofList, List.length_replicate]
  have hscan : Token.scan (String.ofList (List.replicate 4301 '7')) =
      .ok [⟨.number (String.ofList (List.replicate 4301 '7')), 0⟩] := by
    have hne : List.replicate 4301 '7' ≠ [] :=
      List.ne_nil_of_length_pos (by rw [List.length_replicate]; decide)
    rw [String.toList_ofList] at hdecimal
    exact Token.scan_of_spells (Lexeme.simple_digits hne hdecimal).spells
  obtain ⟨herror, hvalue⟩ :=
    (Token.scan_number_iff_isNumeral hspace fun c hc _ => hdecimal c hc).2 hscan (.tooManyDigits 4301)
  have hread := herror.mpr ⟨⟨hdecimal, by rw [hlength]; decide⟩, by rw [hlength]⟩
  have hforeign := tight_of_all "٣.E-07".toList rfl
  have hpoints := tight_of_all "1.5.2".toList rfl
  refine ⟨?_, ?_, (hvalue hread).1, (hvalue hread).2.2⟩
  · exact (Token.scan_number_iff_isNumeral hforeign.1 hforeign.2).1.mpr (by decide)
  · intro h
    have hnumeral := ((Token.scan_number_iff_isNumeral hpoints.1 hpoints.2).1.mp h).1
    cases hnumeral

end Spreadsheet
