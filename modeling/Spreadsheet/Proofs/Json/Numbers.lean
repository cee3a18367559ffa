import Mathlib.Tactic.Ring
import Spreadsheet.Json.Reader
import Spreadsheet.Json.Writer
import Spreadsheet.Proofs.Number.Decimals
import Spreadsheet.Proofs.Reference.RoundTrip

/-!
# Numbers of stored data

The text of a number is read as this number again, in front of everything that does not go on with
it. A double comes back exactly, since its shortest decimal reads back, wherever the point stands.
-/

namespace Spreadsheet

open Text

/-! ## The value of digits -/

theorem foldl_decimal (n : Nat) (cs : List Char) :
    cs.foldl (fun n c => 10 * n + (digitValue? c).getD 0) n =
      n * tenPow cs.length + decimalValue cs := by
  -- The number so far takes in one digit, and what is left of the digits weighs one power of ten
  -- less.
  induction cs generalizing n with
  | nil => exact (Nat.mul_one n).symm
  | cons c cs ih =>
    unfold decimalValue
    rw [List.foldl_cons, List.foldl_cons, ih, ih (10 * 0 + _), List.length_cons, tenPow_succ]
    ring

theorem decimalValue_append (cs ds : List Char) :
    decimalValue (cs ++ ds) = decimalValue cs * tenPow ds.length + decimalValue ds := by
  unfold decimalValue
  rw [List.foldl_append, foldl_decimal]
  rfl

theorem decimalValue_zeros (k : Nat) : decimalValue (List.replicate k '0') = 0 := by
  induction k with
  | zero => rfl
  | succ k ih =>
    rw [List.replicate_succ', decimalValue_append, ih]
    rfl

namespace Json

/-! ## Whole numbers -/

structure IsWhole (ds : List Char) : Prop where
  ne_nil : ds ≠ []
  isPlainDigit : ∀ c ∈ ds, isPlainDigit c = true
  zero : ds.head? = some '0' → ds = ['0']

theorem isWhole_toDigits (n : Nat) : IsWhole (Nat.toDigits 10 n) where
  ne_nil := Nat.toDigits_ne_nil
  isPlainDigit _ := isPlainDigit_of_mem_toDigits
  zero h := by
    by_cases hn : 0 < n
    · exact absurd h (head?_toDigits hn)
    · obtain rfl : n = 0 := by omega
      rfl

def NumberEnds (cs : List Char) : Prop :=
  ∀ c ∈ cs.head?, isPlainDigit c = false ∧ c ≠ '.' ∧ c ≠ 'e' ∧ c ≠ 'E'

theorem NumberEnds.isPlainDigit {cs : List Char} (h : NumberEnds cs) :
    ∀ c ∈ cs.head?, isPlainDigit c = false :=
  fun c hc => (h c hc).1

theorem takeWhile_run {ds rest : List Char} (h : ∀ c ∈ ds, isPlainDigit c = true)
    (hrest : ∀ c ∈ rest.head?, isPlainDigit c = false) :
    (ds ++ rest).takeWhile isPlainDigit = ds ∧ (ds ++ rest).dropWhile isPlainDigit = rest := by
  rw [takeWhile_append_of_head ds hrest, dropWhile_append_of_head ds hrest,
    List.takeWhile_eq_self_iff.mpr h, List.dropWhile_eq_nil_iff.mpr h]
  exact ⟨rfl, rfl⟩

theorem takeWhole?_append {whole rest : List Char} (h : IsWhole whole)
    (hrest : ∀ c ∈ rest.head?, isPlainDigit c = false) :
    takeWhole? (whole ++ rest) = some (whole, rest) := by
  cases whole with
  | nil => exact absurd rfl h.ne_nil
  | cons c ds =>
    obtain ⟨hc, hds⟩ := List.forall_mem_cons.mp h.isPlainDigit
    obtain ⟨htake, hdrop⟩ := takeWhile_run hds hrest
    by_cases hzero : c = '0'
    · subst hzero
      obtain rfl : ds = [] := List.tail_eq_of_cons_eq (h.zero rfl)
      rfl
    · simp only [List.cons_append, takeWhole?, hzero, if_false, hc, if_true, htake, hdrop]

theorem takeFraction?_point {fraction rest : List Char} (hne : fraction ≠ [])
    (h : ∀ c ∈ fraction, isPlainDigit c = true) (hrest : ∀ c ∈ rest.head?, isPlainDigit c = false) :
    takeFraction? ('.' :: (fraction ++ rest)) = some (fraction, rest) := by
  obtain ⟨htake, hdrop⟩ := takeWhile_run h hrest
  have hempty : fraction.isEmpty = false := by simp [hne]
  simp only [takeFraction?, htake, hdrop, hempty, Bool.false_eq_true, if_false]

theorem takeFraction?_eq_none {rest : List Char} (h : ∀ c ∈ rest.head?, c ≠ '.') :
    takeFraction? rest = none := by
  unfold takeFraction?
  split
  · exact absurd rfl (h '.' rfl)
  · rfl

theorem takeExponent?_eq_none {rest : List Char} (h : ∀ c ∈ rest.head?, c ≠ 'e' ∧ c ≠ 'E') :
    takeExponent? rest = none := by
  cases rest with
  | nil => rfl
  | cons c cs =>
    obtain ⟨hsmall, hcapital⟩ := h c rfl
    simp [takeExponent?, hsmall, hcapital]

/-- An exponent is written as its letter, a sign and the digits of its size. -/
theorem takeExponent?_append {power rest : List Char} (e : Int) (hne : power ≠ [])
    (h : ∀ c ∈ power, isPlainDigit c = true) (hvalue : decimalValue power = e.natAbs)
    (hrest : ∀ c ∈ rest.head?, isPlainDigit c = false) :
    takeExponent? ('e' :: (if e < 0 then '-' else '+') :: (power ++ rest)) = some (e, rest) := by
  obtain ⟨htake, hdrop⟩ := takeWhile_run h hrest
  have hempty : power.isEmpty = false := by simp [hne]
  by_cases hnegative : e < 0
  · have habs : -(e.natAbs : Int) = e := by omega
    rw [if_pos hnegative]
    simp only [takeExponent?, splitSign, htake, hdrop, hempty, hvalue, habs, Bool.false_eq_true,
      if_false, if_true]
    rfl
  · have habs : (e.natAbs : Int) = e := by omega
    rw [if_neg hnegative]
    simp only [takeExponent?, splitSign, htake, hdrop, hempty, hvalue, habs, Bool.false_eq_true,
      if_false]
    rfl

/-! ## Reading -/

def withSign (negative : Bool) (body : List Char) : List Char :=
  if negative then '-' :: body else body

theorem withSign_append (negative : Bool) (body rest : List Char) :
    withSign negative body ++ rest = withSign negative (body ++ rest) := by
  cases negative <;> rfl

def readUnsigned (negative : Bool) : Reader Number := fun cs =>
  match takeWhole? cs with
  | none => .error .malformed
  | some (whole, rest) =>
    let fraction? := takeFraction? rest
    let (fraction, rest) := fraction?.getD ([], rest)
    let exponent? := takeExponent? rest
    let (exponent, rest) := exponent?.getD (0, rest)
    if fraction?.isNone && exponent?.isNone then
      if maxDigits < whole.length then .error (.badNumber (.tooManyDigits whole.length))
      else
        .ok (.integer (if negative then -(decimalValue whole : Int) else decimalValue whole), rest)
    else
      .ok (.double (Decimal.toDouble
        ⟨negative, decimalValue (whole ++ fraction), exponent - fraction.length⟩), rest)

theorem readNumber_eq (negative : Bool) {body : List Char}
    (h : ∀ c ∈ body.head?, isPlainDigit c = true) :
    readNumber (withSign negative body) = readUnsigned negative body := by
  cases negative with
  | true => rfl
  | false =>
    cases body with
    | nil => rfl
    | cons c cs =>
      have hc : c ≠ '-' := by
        rintro rfl
        cases h '-' rfl
      unfold withSign readNumber
      rw [if_neg Bool.false_ne_true]
      split
      rename_i negative body hsign
      split at hsign
      · rename_i heq
        exact absurd (List.cons.inj heq).1 hc
      · cases hsign
        rfl

/-- The text of a number starts with a digit behind its sign. -/
theorem IsWhole.head {whole : List Char} (h : IsWhole whole) (tail : List Char) :
    ∀ c ∈ (whole ++ tail).head?, Text.isPlainDigit c = true := by
  rw [List.head?_append_of_ne_nil _ h.ne_nil]
  exact fun c hc => h.isPlainDigit c (List.mem_of_mem_head? hc)

variable {whole tail rest : List Char}

theorem readNumber_integer (negative : Bool) (hwhole : IsWhole whole)
    (hlength : whole.length ≤ maxDigits) (hrest : NumberEnds rest) :
    readNumber (withSign negative (whole ++ rest)) =
      .ok (.integer (if negative then -(decimalValue whole : Int) else decimalValue whole), rest) := by
  have hfraction : takeFraction? rest = none := takeFraction?_eq_none fun c hc => (hrest c hc).2.1
  have hexponent : takeExponent? rest = none := takeExponent?_eq_none fun c hc => (hrest c hc).2.2
  have hshort : ¬maxDigits < whole.length := Nat.not_lt.mpr hlength
  rw [readNumber_eq negative (hwhole.head rest)]
  unfold readUnsigned
  simp only [takeWhole?_append hwhole hrest.isPlainDigit, hfraction, hexponent, Option.getD_none,
    Option.isNone_none, Bool.and_self, if_true, hshort, if_false]

/-- A number with a fraction, an exponent or both is a double. -/
theorem readNumber_double (negative : Bool) {fraction behind : List Char} {e : Int}
    {fraction? : Option (List Char × List Char)} {exponent? : Option (Int × List Char)}
    (hwhole : IsWhole whole) (htail : ∀ c ∈ tail.head?, isPlainDigit c = false)
    (hfraction : takeFraction? tail = fraction?)
    (hbehind : fraction?.getD ([], tail) = (fraction, behind))
    (hexponent : takeExponent? behind = exponent?)
    (hrest : exponent?.getD (0, behind) = (e, rest))
    (hsome : (fraction?.isNone && exponent?.isNone) = false) :
    readNumber (withSign negative (whole ++ tail)) =
      .ok (.double (Decimal.toDouble
        ⟨negative, decimalValue (whole ++ fraction), e - fraction.length⟩), rest) := by
  rw [readNumber_eq negative (hwhole.head tail)]
  unfold readUnsigned
  simp only [takeWhole?_append hwhole htail, hfraction, hbehind, hexponent, hrest, hsome,
    Bool.false_eq_true, if_false]

/-! ## The text of a decimal -/

theorem isPlainDigit_of_mem_zeros {k : Nat} {c : Char} (h : c ∈ List.replicate k '0') :
    Text.isPlainDigit c = true := by
  rw [List.eq_of_mem_replicate h]
  rfl

theorem isWhole_append_zeros {n : Nat} (hn : 0 < n) (k : Nat) :
    IsWhole (Nat.toDigits 10 n ++ List.replicate k '0') where
  ne_nil h := Nat.toDigits_ne_nil (List.append_eq_nil_iff.mp h).1
  isPlainDigit c hc := by
    rcases List.mem_append.mp hc with hdigit | hzero
    · exact isPlainDigit_of_mem_toDigits hdigit
    · exact isPlainDigit_of_mem_zeros hzero
  zero h := by
    rw [List.head?_append_of_ne_nil _ Nat.toDigits_ne_nil] at h
    exact absurd h (head?_toDigits hn)

theorem isWhole_take {n k : Nat} (hn : 0 < n) (hk : 0 < k) :
    IsWhole ((Nat.toDigits 10 n).take k) where
  ne_nil h := by
    rcases List.take_eq_nil_iff.mp h with hzero | hnil
    · omega
    · exact Nat.toDigits_ne_nil hnil
  isPlainDigit c hc := isPlainDigit_of_mem_toDigits (List.mem_of_mem_take hc)
  zero h := by
    rw [List.head?_take, if_neg (by omega)] at h
    exact absurd h (head?_toDigits hn)

theorem isWhole_zero : IsWhole ['0'] :=
  ⟨nofun, List.forall_mem_singleton.mpr rfl, fun _ => rfl⟩

/-- A number with a point and without an exponent. -/
theorem readNumber_point (negative : Bool) {fraction : List Char} (hwhole : IsWhole whole)
    (hne : fraction ≠ []) (hfraction : ∀ c ∈ fraction, Text.isPlainDigit c = true)
    (hrest : NumberEnds rest) :
    readNumber (withSign negative (whole ++ '.' :: (fraction ++ rest))) =
      .ok (.double (Decimal.toDouble
        ⟨negative, decimalValue (whole ++ fraction), 0 - fraction.length⟩), rest) := by
  have hpoint : ∀ c ∈ ('.' :: (fraction ++ rest)).head?, Text.isPlainDigit c = false := by
    rintro c ⟨⟩
    rfl
  have hexponent : takeExponent? rest = none := takeExponent?_eq_none fun c hc => (hrest c hc).2.2
  exact readNumber_double negative hwhole hpoint
    (takeFraction?_point hne hfraction hrest.isPlainDigit) rfl hexponent rfl rfl

/-- A number with an exponent, and with digits behind a point or without a point. -/
theorem readNumber_exponent (negative : Bool) {digits power : List Char} (e : Int)
    (hne : digits ≠ []) (hdigits : ∀ c ∈ digits, Text.isPlainDigit c = true) (hpower : power ≠ [])
    (hplain : ∀ c ∈ power, Text.isPlainDigit c = true) (hvalue : decimalValue power = e.natAbs)
    (hrest : NumberEnds rest) :
    readNumber (withSign negative (Decimal.leadingPoint digits ++
        'e' :: (if e < 0 then '-' else '+') :: (power ++ rest))) =
      .ok (.double (Decimal.toDouble
        ⟨negative, decimalValue digits, e - (digits.length - 1 : Nat)⟩), rest) := by
  have hexponent := takeExponent?_append e hpower hplain hvalue hrest.isPlainDigit
  have hletter : ∀ c ∈ ('e' :: (if e < 0 then '-' else '+') :: (power ++ rest)).head?,
      Text.isPlainDigit c = false := by
    rintro c ⟨⟩
    rfl
  cases digits with
  | nil => exact absurd rfl hne
  | cons c ds =>
    obtain ⟨hc, hds⟩ := List.forall_mem_cons.mp hdigits
    have hwhole : IsWhole [c] :=
      ⟨nofun, List.forall_mem_singleton.mpr hc, fun h => congrArg (fun d => [d]) (Option.some.inj h)⟩
    -- A single digit is printed without a point, so the fraction is absent there.
    cases ds with
    | nil =>
      have hfraction : takeFraction? ('e' :: (if e < 0 then '-' else '+') :: (power ++ rest)) =
          none := rfl
      exact readNumber_double negative hwhole hletter hfraction rfl hexponent rfl rfl
    | cons d ds =>
      have hpoint : ∀ tail : List Char, ∀ c ∈ ('.' :: tail).head?, Text.isPlainDigit c = false := by
        rintro tail c ⟨⟩
        rfl
      exact readNumber_double negative hwhole (hpoint _)
        (takeFraction?_point (List.cons_ne_nil d ds) hds hletter) rfl hexponent rfl rfl

theorem decimalValue_zeros_append (k : Nat) (cs : List Char) :
    decimalValue (List.replicate k '0' ++ cs) = decimalValue cs := by
  rw [decimalValue_append, decimalValue_zeros, Nat.zero_mul, Nat.zero_add]

theorem decimalValue_append_zeros (cs : List Char) (k : Nat) :
    decimalValue (cs ++ List.replicate k '0') = decimalValue cs * tenPow k := by
  rw [decimalValue_append, decimalValue_zeros, Nat.add_zero, List.length_replicate]

/-- A decimal with digits on both sides of a point, filled up with zeros. -/
theorem readNumber_positional (negative : Bool) {n : Nat} {e : Int} (hzero : n = 0 → e = 0)
    (hrest : NumberEnds rest) :
    readNumber (withSign negative (Decimal.positional (Nat.toDigits 10 n) e ++ rest)) =
      .ok (.double (Decimal.toDouble ⟨negative, n, e⟩), rest) := by
  unfold Decimal.positional
  dsimp only
  by_cases hnonneg : 0 ≤ e
  · have hwhole : IsWhole (Nat.toDigits 10 n ++ List.replicate e.toNat '0') := by
      by_cases hn : n = 0
      · obtain rfl := hzero hn
        subst hn
        exact isWhole_zero
      · exact isWhole_append_zeros (Nat.pos_of_ne_zero hn) _
    have hvalue : decimalValue (Nat.toDigits 10 n ++ List.replicate e.toNat '0' ++ ['0']) =
        n * tenPow (e.toNat + 1) := by
      rw [List.append_assoc, ← List.replicate_succ', decimalValue_append_zeros,
        decimalValue_toDigits]
    have hexponent : (0 : Int) - (['0'].length : Nat) + (e.toNat + 1 : Nat) = e := by
      rw [List.length_singleton]
      omega
    have hread := readNumber_point negative hwhole (List.cons_ne_nil '0' [])
      (List.forall_mem_singleton.mpr rfl) hrest
    rw [hvalue, Decimal.toDouble_mul_tenPow, hexponent] at hread
    rw [if_pos hnonneg, List.append_assoc]
    exact hread
  · have hn : 0 < n := Nat.pos_of_ne_zero fun hn => hnonneg (by rw [hzero hn])
    have hdigits : ∀ c ∈ Nat.toDigits 10 n, Text.isPlainDigit c = true :=
      fun c => isPlainDigit_of_mem_toDigits
    rw [if_neg hnonneg]
    by_cases hpos : 0 < ((Nat.toDigits 10 n).length : Int) + e
    · -- The point stands among the digits.
      generalize hplace : (((Nat.toDigits 10 n).length : Int) + e).toNat = place
      have hne : (Nat.toDigits 10 n).drop place ≠ [] := by
        rw [ne_eq, List.drop_eq_nil_iff]
        omega
      have hexponent : (0 : Int) - ((Nat.toDigits 10 n).drop place).length = e := by
        rw [List.length_drop]
        omega
      have hwhole : IsWhole ((Nat.toDigits 10 n).take place) := isWhole_take hn (by omega)
      have hread := readNumber_point negative hwhole hne
        (fun c hc => hdigits c (List.mem_of_mem_drop hc)) hrest
      rw [List.take_append_drop, decimalValue_toDigits, hexponent] at hread
      rw [if_pos hpos, List.append_assoc]
      exact hread
    · -- Zeros stand between the point and the digits.
      generalize hzeros : (-(((Nat.toDigits 10 n).length : Int) + e)).toNat = zeros
      have hplain : ∀ c ∈ List.replicate zeros '0' ++ Nat.toDigits 10 n,
          Text.isPlainDigit c = true := by
        intro c hc
        rcases List.mem_append.mp hc with hzero | hdigit
        · exact isPlainDigit_of_mem_zeros hzero
        · exact hdigits c hdigit
      have hne : List.replicate zeros '0' ++ Nat.toDigits 10 n ≠ [] :=
        List.append_ne_nil_of_right_ne_nil _ Nat.toDigits_ne_nil
      have hexponent : (0 : Int) - (List.replicate zeros '0' ++ Nat.toDigits 10 n).length = e := by
        rw [List.length_append, List.length_replicate]
        omega
      have hvalue : decimalValue (['0'] ++ (List.replicate zeros '0' ++ Nat.toDigits 10 n)) = n := by
        rw [← List.append_assoc, ← List.replicate_one, ← List.replicate_add,
          decimalValue_zeros_append, decimalValue_toDigits]
      have hread := readNumber_point negative isWhole_zero hne hplain hrest
      rw [hvalue, hexponent] at hread
      rw [if_neg hpos]
      exact hread

/-- A decimal with one digit before the point and an exponent. -/
theorem readNumber_scientific (negative : Bool) (n : Nat) (e : Int) (hrest : NumberEnds rest) :
    readNumber (withSign negative (Decimal.scientific (Nat.toDigits 10 n)
        ((Nat.toDigits 10 n).length + e - 1) ++ rest)) =
      .ok (.double (Decimal.toDouble ⟨negative, n, e⟩), rest) := by
  -- The printed exponent belongs to the first digit, the one of the decimal to the last.
  generalize hleading : ((Nat.toDigits 10 n).length : Int) + e - 1 = leading
  have hpos : 0 < (Nat.toDigits 10 n).length := Nat.length_toDigits_pos
  have hplain : ∀ c ∈ List.replicate (2 - (Nat.toDigits 10 leading.natAbs).length) '0' ++
      Nat.toDigits 10 leading.natAbs, Text.isPlainDigit c = true := by
    intro c hc
    rcases List.mem_append.mp hc with hzero | hdigit
    · exact isPlainDigit_of_mem_zeros hzero
    · exact isPlainDigit_of_mem_toDigits hdigit
  have hvalue : decimalValue (List.replicate (2 - (Nat.toDigits 10 leading.natAbs).length) '0' ++
      Nat.toDigits 10 leading.natAbs) = leading.natAbs := by
    rw [decimalValue_zeros_append, decimalValue_toDigits]
  have hexponent : leading - ((Nat.toDigits 10 n).length - 1 : Nat) = e := by omega
  have hdigits : ∀ c ∈ Nat.toDigits 10 n, Text.isPlainDigit c = true :=
    fun c => isPlainDigit_of_mem_toDigits
  have hread := readNumber_exponent negative leading Nat.toDigits_ne_nil hdigits
    (List.append_ne_nil_of_right_ne_nil _ Nat.toDigits_ne_nil) hplain hvalue hrest
  rw [decimalValue_toDigits, hexponent] at hread
  unfold Decimal.scientific
  rw [List.append_assoc]
  exact hread

/-- The text of a decimal reads as the double nearest to it. -/
theorem readNumber_text {d : Decimal} (hzero : d.coefficient = 0 → d.exponent = 0)
    (hrest : NumberEnds rest) :
    readNumber (d.text.toList ++ rest) = .ok (.double d.toDouble, rest) := by
  unfold Decimal.text
  dsimp only
  rw [String.toList_ofList]
  show readNumber (withSign d.negative _ ++ rest) = _
  rw [withSign_append]
  split
  · exact readNumber_positional d.negative hzero hrest
  · exact readNumber_scientific d.negative d.coefficient d.exponent hrest

/-! ## The text of a number -/

/-- The text of a double reads as this double. -/
theorem readNumber_shortest (negative : Bool) (m : Magnitude) (hrest : NumberEnds rest) :
    readNumber ((Double.shortest negative m).text.toList ++ rest) =
      .ok (.double (.finite negative m), rest) := by
  rw [readNumber_text (Double.exponent_shortest negative m) hrest, Double.toDouble_shortest]

theorem integerText?_eq_withSign {n : Int} (h : decimalLength n.natAbs ≤ maxDigits) :
    integerText? n =
      some (String.ofList (withSign (decide (n < 0)) (Nat.toDigits 10 n.natAbs))) := by
  have htext : integerText? n =
      some (String.ofList (if n < 0 then '-' :: Nat.toDigits 10 n.natAbs
        else Nat.toDigits 10 n.natAbs)) := if_neg (Nat.not_lt.mpr h)
  rw [htext]
  unfold withSign
  simp only [decide_eq_true_eq]

/-- The text of a whole number reads as this number. -/
theorem readNumber_toDigits {n : Int} (h : decimalLength n.natAbs ≤ maxDigits)
    (hrest : NumberEnds rest) :
    readNumber (withSign (decide (n < 0)) (Nat.toDigits 10 n.natAbs) ++ rest) =
      .ok (.integer n, rest) := by
  have hvalue : (if decide (n < 0) = true then -(n.natAbs : Int) else n.natAbs) = n := by
    by_cases hn : n < 0
    · rw [if_pos (decide_eq_true hn)]
      omega
    · rw [if_neg (by simpa using hn)]
      omega
  rw [withSign_append, readNumber_integer _ (isWhole_toDigits _) h hrest, decimalValue_toDigits,
    hvalue]

end Json

end Spreadsheet
