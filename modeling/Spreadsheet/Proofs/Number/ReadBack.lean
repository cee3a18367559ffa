import Spreadsheet.Proofs.Json.Writable
import Spreadsheet.Proofs.Number.Values
import Spreadsheet.Proofs.Storage.Conversion

/-!
# Numbers are read back

The text of a number is read as a number of the same value. A number in stored data is a numeral, and it is
read alike by itself, so the texts of doubles, with a point or with an exponent, come back as the doubles
that they are the shortest texts of. A double with a whole value is written as a whole number and comes back
as one.
-/

namespace Spreadsheet

open Text

namespace Json

/-! ## Numbers of stored data as numerals -/

theorem isNumber_of_takeWhole? {cs whole rest : List Char}
    (h : takeWhole? cs = some (whole, rest)) : IsNumber whole ∧ cs = whole ++ rest := by
  cases cs with
  | nil => cases h
  | cons c cs =>
    simp only [takeWhole?] at h
    split at h
    · rename_i hzero
      cases h
      subst hzero
      exact ⟨⟨List.cons_ne_nil _ _, List.forall_mem_singleton.mpr rfl⟩, rfl⟩
    · split at h
      · rename_i hc
        cases h
        refine ⟨⟨List.cons_ne_nil _ _, List.forall_mem_cons.mpr ⟨isDecimal_of_isPlainDigit hc, ?_⟩⟩, ?_⟩
        · exact fun d hd => isDecimal_of_isPlainDigit (List.mem_takeWhile_imp hd)
        · rw [List.cons_append, List.takeWhile_append_dropWhile]
      · cases h

/-- Behind the whole part stands a fraction with its point, or nothing is taken. -/
theorem exists_fraction_of_takeFraction? (cs : List Char) :
    ∃ fraction : Option (List Char), (∀ c ∈ fraction.getD [], isDecimal c = true) ∧
      (takeFraction? cs).isNone = fraction.isNone ∧
      ((takeFraction? cs).getD ([], cs)).1 = fraction.getD [] ∧
      cs = pointText fraction ++ ((takeFraction? cs).getD ([], cs)).2 := by
  unfold takeFraction?
  split
  · rename_i ds
    split
    · exact ⟨none, nofun, rfl, rfl, rfl⟩
    · refine ⟨some (ds.takeWhile isPlainDigit), ?_, rfl, rfl, ?_⟩
      · exact fun c hc => isDecimal_of_isPlainDigit (List.mem_takeWhile_imp hc)
      · show '.' :: ds = '.' :: (ds.takeWhile isPlainDigit ++ ds.dropWhile isPlainDigit)
        rw [List.takeWhile_append_dropWhile]
  · exact ⟨none, nofun, rfl, rfl, rfl⟩

/-- Behind the fraction stands a power of ten, or nothing is taken. -/
theorem exists_power_of_takeExponent? (cs : List Char) :
    ∃ power : Option Power, (∀ p ∈ power, p.WellFormed) ∧
      (takeExponent? cs).isNone = power.isNone ∧
      ((takeExponent? cs).getD (0, cs)).1 = power.elim 0 Power.value ∧
      cs = power.elim [] Power.spelling ++ ((takeExponent? cs).getD (0, cs)).2 := by
  cases cs with
  | nil => exact ⟨none, nofun, rfl, rfl, rfl⟩
  | cons c cs =>
    obtain ⟨sign, hcs, hsign⟩ := exists_sign cs
    unfold takeExponent?
    dsimp only
    split
    · rename_i hletter
      split
      · exact ⟨none, nofun, rfl, rfl, rfl⟩
      · rename_i hdigits
        -- Without a digit behind the letter there is no exponent and nothing is taken.
        have hpower : Power.WellFormed ⟨c, sign, (splitSign cs).2.takeWhile isPlainDigit⟩ := by
          refine ⟨by simpa using hletter, fun hnil => hdigits ?_, fun d hd => ?_⟩
          · exact List.isEmpty_iff.mpr hnil
          · exact isDecimal_of_isPlainDigit (List.mem_takeWhile_imp hd)
        refine ⟨some ⟨c, sign, (splitSign cs).2.takeWhile isPlainDigit⟩, ?_, rfl, ?_, ?_⟩
        · rintro _ ⟨⟩
          exact hpower
        · show (if (splitSign cs).1 = true then _ else _) = signedValue sign _
          rw [hsign]
          cases sign with
          | none => rfl
          | some negative => cases negative <;> rfl
        · show c :: cs = c :: (signText sign ++ (splitSign cs).2.takeWhile isPlainDigit) ++
            (splitSign cs).2.dropWhile isPlainDigit
          rw [List.cons_append, List.append_assoc, List.takeWhile_append_dropWhile, ← hcs]
    · exact ⟨none, nofun, rfl, rfl, rfl⟩

/-- What is read of a whole number in stored data is a numeral with the value that was read. -/
theorem exists_numeral_of_readUnsigned {negative : Bool} {body : List Char} {n : Number}
    (h : readUnsigned negative body = .ok (n, [])) :
    ∃ m : Numeral, m.WellFormed ∧ ¬ m.IsTooLong ∧ m.spelling = withSign negative body ∧ m.value = n := by
  unfold readUnsigned at h
  split at h
  · cases h
  · rename_i whole rest hwhole
    obtain ⟨hdigits, rfl⟩ := isNumber_of_takeWhole? hwhole
    obtain ⟨fraction, hfraction, hnoFraction, hfractionDigits, hrest⟩ :=
      exists_fraction_of_takeFraction? rest
    dsimp only at h
    generalize ((takeFraction? rest).getD ([], rest)).2 = behind at h hrest
    obtain ⟨power, hpower, hnoPower, hexponent, hbehind⟩ := exists_power_of_takeExponent? behind
    rw [hnoFraction, hfractionDigits, hnoPower, hexponent] at h
    -- The numeral is put together from the parts that were read; its spelling and value follow part
    -- by part.
    let m : Numeral := ⟨if negative then some true else none, whole, fraction, power⟩
    have hnegative : (m.sign == some true) = negative := by
      cases negative <;> rfl
    have hm : m.WellFormed := ⟨hdigits.isDecimal, hfraction,
      List.append_ne_nil_of_left_ne_nil hdigits.ne_nil _, hpower⟩
    have hspelling (hnil : ((takeExponent? behind).getD (0, behind)).2 = []) :
        m.spelling = withSign negative (whole ++ rest) := by
      rw [hnil, List.append_nil] at hbehind
      rw [hrest, hbehind]
      cases negative <;> rfl
    split at h
    · rename_i hwholeNumber
      split at h
      · cases h
      · rename_i hlength
        obtain ⟨rfl, hnil⟩ := Prod.mk.inj (Except.ok.inj h)
        refine ⟨m, hm, fun hlong => hlength hlong.2, hspelling hnil, ?_⟩
        unfold Numeral.value Numeral.isWhole
        rw [if_pos hwholeNumber]
        cases negative <;> rfl
    · rename_i hdouble
      obtain ⟨rfl, hnil⟩ := Prod.mk.inj (Except.ok.inj h)
      refine ⟨m, hm, fun hlong => hdouble hlong.1, hspelling hnil, ?_⟩
      unfold Numeral.value Numeral.isWhole Numeral.decimal
      rw [if_neg hdouble, hnegative]
      rfl

/-- A number of stored data is a numeral with its value. -/
theorem exists_numeral_of_readNumber {cs : List Char} {n : Number}
    (h : readNumber cs = .ok (n, [])) :
    ∃ m : Numeral, m.WellFormed ∧ ¬ m.IsTooLong ∧ m.spelling = cs ∧ m.value = n := by
  obtain ⟨negative, body, rfl, hread⟩ := readNumber_cases cs
  rw [hread] at h
  exact exists_numeral_of_readUnsigned h

end Json

/-! ## Doubles with a whole value -/

theorem Double.signedUnits_of_toInt? {negative : Bool} {m : Magnitude} {n : Int}
    (h : toInt? (.finite negative m) = some n) :
    signedUnits negative m = n * Magnitude.unitsPerOne := by
  simp only [toInt?] at h
  split at h
  · rename_i hwhole
    have hunits : (m.units : Int) =
        (m.units / Magnitude.unitsPerOne : Nat) * Magnitude.unitsPerOne := by
      rw [← Int.natCast_mul, Nat.div_mul_cancel (Nat.dvd_of_mod_eq_zero hwhole)]
    rw [← Option.some.inj h]
    unfold signedUnits
    cases negative with
    | true =>
      show -(m.units : Int) = -((m.units / Magnitude.unitsPerOne : Nat) : Int) * _
      rw [Int.neg_mul, ← hunits]
    | false => exact hunits
  · cases h

namespace Number

/-- The number that the text of a number spells: a double with a whole value is written as this. -/
def asWritten : Number → Number
  | .integer n => .integer n
  | .double x =>
    match x.toInt? with
    | some n => .integer n
    | none => .double x

/-- What is written of a number lies at its place. -/
theorem place?_asWritten (n : Number) : n.asWritten.place? = n.place? := by
  cases n with
  | integer n => rfl
  | double x =>
    unfold asWritten
    dsimp only
    split
    · rename_i n hn
      cases x with
      | nan => cases hn
      | infinity negative => cases hn
      | finite negative m =>
        show some (Place.at (n * Magnitude.unitsPerOne)) = some (.at (Double.signedUnits negative m))
        rw [Double.signedUnits_of_toInt? hn]
    · rfl

theorem value?_asWritten (n : Number) : n.asWritten.value? = n.value? := by
  rw [value?_eq_map_place?, value?_eq_map_place?, place?_asWritten]

/-- The whole value of a double has at most 309 digits. -/
theorem isShort_of_toInt? {negative : Bool} {m : Magnitude} {n : Int}
    (h : Double.toInt? (.finite negative m) = some n) : (Number.integer n).IsShort := by
  have hlimit : Magnitude.limit ≤ tenPow 309 * Magnitude.unitsPerOne := by decide +kernel
  have hunits : n.natAbs * Magnitude.unitsPerOne = m.units := by
    rw [← Double.natAbs_signedUnits negative m, Double.signedUnits_of_toInt? h, Int.natAbs_mul,
      Int.natAbs_natCast]
  have hlt : n.natAbs * Magnitude.unitsPerOne < tenPow 309 * Magnitude.unitsPerOne := by
    rw [hunits]
    exact Nat.lt_of_lt_of_le m.lt_limit hlimit
  have hlength : decimalLength n.natAbs ≤ 309 :=
    Double.decimalLength_le (by decide) (Nat.lt_of_mul_lt_mul_right hlt)
  exact Nat.le_trans hlength (by decide)

def isFinite : Number → Bool
  | .integer _ => true
  | .double (.finite _ _) => true
  | .double _ => false

/-- The text of a number reads as a number in stored data. -/
theorem exists_display_of_isFinite {n : Number} (hshort : n.IsShort) (hfinite : n.isFinite = true) :
    ∃ s, n.display? = some s ∧ Json.readNumber s.toList = .ok (n.asWritten, []) := by
  have hinteger {k : Int} (hk : (Number.integer k).IsShort) :
      ∃ s, integerText? k = some s ∧ Json.readNumber s.toList = .ok (.integer k, []) := by
    have hread : Json.readNumber (Json.withSign _ _ ++ []) = _ := Json.readNumber_toDigits hk nofun
    rw [List.append_nil] at hread
    refine ⟨_, Json.integerText?_eq_withSign hk, ?_⟩
    rw [String.toList_ofList]
    exact hread
  cases n with
  | integer k => exact hinteger hshort
  | double x =>
    cases x with
    | nan => cases hfinite
    | infinity negative => cases hfinite
    | finite negative m =>
      -- A double without a fraction prints as an integer and reads back as one.
      cases hwhole : Double.toInt? (.finite negative m) with
      | some k =>
        simp only [display?, asWritten, hwhole]
        exact hinteger (isShort_of_toInt? hwhole)
      | none =>
        have hread : Json.readNumber (_ ++ []) = _ := Json.readNumber_shortest negative m nofun
        rw [List.append_nil] at hread
        simp only [display?, asWritten, hwhole]
        exact ⟨_, rfl, hread⟩

end Number

namespace Content

/-! ## Stored texts -/

/-- A number of stored data that makes up a text is what the text is read as. -/
theorem ofStored_of_readNumber {s : String} {n : Number}
    (h : Json.readNumber s.toList = .ok (n, [])) : ofStored "number" (some s) = .ok (.number n) := by
  obtain ⟨m, hm, hshort, hspelling, rfl⟩ := Json.exists_numeral_of_readNumber h
  have hne : s ≠ "" := by
    rintro rfl
    cases h
  have hspace : ∀ c ∈ s.toList, isSpace c = false := by
    rw [← hspelling]
    exact fun c hc => (hm.inNumeral c hc).isSpace
  have htrim : trim s.toList = m.spelling := (dropWhile_ends_eq_self hspace).trans hspelling.symm
  rw [ofStored_eq_ofStoredKind rfl hne, ofStoredKind_number hm htrim, hm.read_of_not_isTooLong hshort]
  rfl

/-- A number that is short enough and neither `nan` nor an infinity has a text, and the text is read as a
number of the same value: as the number itself or, for a double with a whole value, as this whole number.
The texts of `nan` and of the infinities are read as blanks. -/
theorem ofStored_number_display (n : Number) :
    (n.IsShort → n.isFinite = true →
      ∃ s, display (.number n) = .ok s ∧ ofStored "number" (some s) = .ok (.number n.asWritten) ∧
        n.asWritten.value? = n.value?) ∧
    (n.isFinite = false →
      ∃ s, display (.number n) = .ok s ∧ ofStored "number" (some s) = .ok .blank) := by
  constructor
  · intro hshort hfinite
    obtain ⟨s, hs, hread⟩ := Number.exists_display_of_isFinite hshort hfinite
    refine ⟨s, ?_, ofStored_of_readNumber hread, n.value?_asWritten⟩
    show writable n.display? = _
    rw [hs]
    rfl
  · intro hfinite
    cases n with
    | integer k => cases hfinite
    | double x =>
      cases x with
      | nan => exact ⟨"NaN", rfl, rfl⟩
      | infinity negative =>
        cases negative with
        | true => exact ⟨"-Infinity", rfl, rfl⟩
        | false => exact ⟨"Infinity", rfl, rfl⟩
      | finite negative m => cases hfinite

/-- The least double above zero comes back as it is, -1e22 as a whole number, and `nan` not at all. -/
theorem ofStored_number_display_least :
    display (.number (.double (Double.ofBits 1))) = .ok "5e-324" ∧
      ofStored "number" (some "5e-324") = .ok (.number (.double (Double.ofBits 1))) ∧
      display (.number (.double (Double.ofBits 0xc480f0cf064dd592))) = .ok "-10000000000000000000000" ∧
      ofStored "number" (some "-10000000000000000000000") = .ok (.integer (-10 ^ 22)) ∧
      ∃ s, display .nan = .ok s ∧ ofStored "number" (some s) = .ok .blank := by
  have hleast : Number.display? (.double (Double.ofBits 1)) = some "5e-324" ∧
      Number.isFinite (.double (Double.ofBits 1)) = true ∧
      Number.asWritten (.double (Double.ofBits 1)) = .double (Double.ofBits 1) := by decide +kernel
  have hwhole : Number.display? (.double (Double.ofBits 0xc480f0cf064dd592)) =
        some "-10000000000000000000000" ∧
      Number.isFinite (.double (Double.ofBits 0xc480f0cf064dd592)) = true ∧
      Number.asWritten (.double (Double.ofBits 0xc480f0cf064dd592)) = .integer (-10 ^ 22) := by
    decide +kernel
  have htext {n : Number} {s : String} (h : n.display? = some s) : display (.number n) = .ok s :=
    congrArg writable h
  obtain ⟨s, hs, hread, -⟩ :=
    (ofStored_number_display (.double (Double.ofBits 1))).1 trivial hleast.2.1
  obtain ⟨t, ht, hread', -⟩ :=
    (ofStored_number_display (.double (Double.ofBits 0xc480f0cf064dd592))).1 trivial hwhole.2.1
  rw [htext hleast.1, Except.ok.injEq] at hs
  rw [htext hwhole.1, Except.ok.injEq] at ht
  rw [← hs, hleast.2.2] at hread
  rw [← ht, hwhole.2.2] at hread'
  exact ⟨htext hleast.1, hread, htext hwhole.1, hread', (ofStored_number_display .nan).2 rfl⟩

end Content

end Spreadsheet
