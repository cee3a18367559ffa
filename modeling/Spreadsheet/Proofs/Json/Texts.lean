import Spreadsheet.Json.Reader
import Spreadsheet.Json.Writer

/-!
# Texts of stored data

A text is written with escapes for quotes, backslashes, control characters and all characters beyond
the basic range. Reading takes each of them back to its character and stops at the closing quote.
-/

namespace Spreadsheet

open Text

namespace Text

/-! ## Digits to the base 16 -/

theorem hexadecimal_zero (width : Nat) :
    hexadecimal (width + 1) 0 = List.replicate (width + 1) '0' := by
  unfold hexadecimal
  rw [Nat.toDigits_zero]
  exact (List.replicate_succ' ..).symm

/-- The last digit stands behind the others. -/
theorem hexadecimal_succ (width n : Nat) :
    hexadecimal (width + 2) n = hexadecimal (width + 1) (n / 16) ++ [(n % 16).digitChar] := by
  by_cases hbase : n < 16
  · have hquotient : n / 16 = 0 := Nat.div_eq_of_lt hbase
    rw [hquotient, hexadecimal_zero, Nat.mod_eq_of_lt hbase]
    unfold hexadecimal
    rw [Nat.toDigits_of_lt_base hbase]
    rfl
  · have hwidth : width + 2 - ((Nat.toDigits 16 (n / 16)).length + 1) =
        width + 1 - (Nat.toDigits 16 (n / 16)).length := by omega
    unfold hexadecimal
    dsimp only
    rw [Nat.toDigits_of_base_le (by decide) (Nat.not_lt.mp hbase), List.length_append,
      List.length_singleton, hwidth, List.append_assoc]

theorem hexadecimal_one {n : Nat} (h : n < 16) : hexadecimal 1 n = [n.digitChar] := by
  unfold hexadecimal
  rw [Nat.toDigits_of_lt_base h]
  rfl

theorem hexadecimal_four {n : Nat} (h : n < 0x10000) :
    hexadecimal 4 n = [(n / 16 / 16 / 16).digitChar, (n / 16 / 16 % 16).digitChar,
      (n / 16 % 16).digitChar, (n % 16).digitChar] := by
  have hfirst : n / 16 / 16 / 16 < 16 := by omega
  rw [hexadecimal_succ, hexadecimal_succ, hexadecimal_succ, hexadecimal_one hfirst]
  rfl

end Text

namespace Json

theorem hexValue?_digitChar {d : Nat} (h : d < 16) : hexValue? d.digitChar = some d := by
  have hall : ∀ d < 16, hexValue? d.digitChar = some d := by decide
  exact hall d h

/-! ## Escapes -/

theorem takeUnit?_hexadecimal {n : Nat} (h : n < 0x10000) (rest : List Char) :
    takeUnit? (hexadecimal 4 n ++ rest) = some (n, rest) := by
  have hsum : ((n / 16 / 16 / 16 * 16 + n / 16 / 16 % 16) * 16 + n / 16 % 16) * 16 + n % 16 = n := by
    omega
  rw [hexadecimal_four h]
  simp only [List.cons_append, List.nil_append, takeUnit?,
    hexValue?_digitChar (show n / 16 / 16 / 16 < 16 by omega),
    hexValue?_digitChar (show n / 16 / 16 % 16 < 16 by omega),
    hexValue?_digitChar (show n / 16 % 16 < 16 by omega),
    hexValue?_digitChar (show n % 16 < 16 by omega), Option.bind_eq_bind, Option.bind_some, hsum]
  rfl

/-- No character is half of a pair of code units. -/
theorem toNat_valid (c : Char) : c.toNat < 0xd800 ∨ 0xe000 ≤ c.toNat ∧ c.toNat < 0x110000 := by
  rcases c.valid with hlow | ⟨hhigh, hlimit⟩
  · exact .inl hlow
  · exact .inr ⟨hhigh, hlimit⟩

theorem takeEscape?_u (cs : List Char) : takeEscape? ('u' :: cs) = takeEscapedChar? cs := rfl

theorem takeEscape?_unit {c : Char} (h : c.toNat < 0x10000) (rest : List Char) :
    takeEscape? ('u' :: (hexadecimal 4 c.toNat ++ rest)) = some (c, rest) := by
  have hvalid := toNat_valid c
  have hhigh : ¬(0xd800 ≤ c.toNat ∧ c.toNat < 0xdc00) := by omega
  have hlow : ¬(0xdc00 ≤ c.toNat ∧ c.toNat < 0xe000) := by omega
  rw [takeEscape?_u]
  unfold takeEscapedChar?
  rw [takeUnit?_hexadecimal h]
  dsimp only [Option.bind_eq_bind, Option.bind_some]
  rw [if_neg hhigh, if_neg hlow, Char.ofNat_toNat]
  rfl

theorem takeLowUnit?_escapedUnit {n : Nat} (h : 0xdc00 ≤ n ∧ n < 0xe000) (rest : List Char) :
    takeLowUnit? (escapedUnit n ++ rest) = some (n, rest) := by
  have hunit := takeUnit?_hexadecimal (n := n) (by omega) rest
  simp only [escapedUnit, List.cons_append, takeLowUnit?, hunit]
  rw [if_pos h]

/-- Two code units are put together. -/
theorem takeEscapedChar?_pair {first second : Nat} (hfirst : 0xd800 ≤ first ∧ first < 0xdc00)
    (hsecond : 0xdc00 ≤ second ∧ second < 0xe000) (rest : List Char) :
    takeEscapedChar? (hexadecimal 4 first ++ (escapedUnit second ++ rest)) =
      some (Char.ofNat (0x10000 + (first - 0xd800) * 0x400 + (second - 0xdc00)), rest) := by
  have hunit := takeUnit?_hexadecimal (show first < 0x10000 by omega) (escapedUnit second ++ rest)
  unfold takeEscapedChar?
  rw [hunit]
  dsimp only [Option.bind_eq_bind, Option.bind_some]
  rw [if_pos hfirst, takeLowUnit?_escapedUnit hsecond]
  rfl

theorem takeEscape?_pair {c : Char} (h : 0x10000 ≤ c.toNat) (rest : List Char) :
    takeEscape? ('u' :: (hexadecimal 4 (0xd800 + (c.toNat - 0x10000) / 0x400) ++
      (escapedUnit (0xdc00 + (c.toNat - 0x10000) % 0x400) ++ rest))) = some (c, rest) := by
  have hvalid := toNat_valid c
  have hfirst : 0xd800 ≤ 0xd800 + (c.toNat - 0x10000) / 0x400 ∧
      0xd800 + (c.toNat - 0x10000) / 0x400 < 0xdc00 := by omega
  have hsecond : 0xdc00 ≤ 0xdc00 + (c.toNat - 0x10000) % 0x400 ∧
      0xdc00 + (c.toNat - 0x10000) % 0x400 < 0xe000 := by omega
  have hsum : 0x10000 + (0xd800 + (c.toNat - 0x10000) / 0x400 - 0xd800) * 0x400 +
      (0xdc00 + (c.toNat - 0x10000) % 0x400 - 0xdc00) = c.toNat := by omega
  rw [takeEscape?_u, takeEscapedChar?_pair hfirst hsecond, hsum, Char.ofNat_toNat]

/-! ## Characters and whole texts -/

theorem takeChars?_escape {d : Char} {cs rest : List Char} (h : takeEscape? cs = some (d, rest))
    (n : Nat) :
    takeChars? (n + 1) ('\\' :: cs) = (takeChars? n rest).map fun (ds, rest) => (d :: ds, rest) := by
  rw [takeChars?, if_neg (by decide), if_pos rfl, h]
  dsimp only [Option.bind_eq_bind, Option.bind_some]
  cases takeChars? n rest with
  | none => rfl
  | some found => rfl

theorem takeChars?_plain {c : Char} (hquote : c ≠ '"') (hslash : c ≠ '\\') (hprint : 0x20 ≤ c.toNat)
    (n : Nat) (cs : List Char) :
    takeChars? (n + 1) (c :: cs) = (takeChars? n cs).map fun (ds, rest) => (c :: ds, rest) := by
  rw [takeChars?, if_neg hquote, if_neg hslash, if_neg (Nat.not_lt.mpr hprint)]
  cases takeChars? n cs with
  | none => rfl
  | some found => rfl

theorem escapedUnit_append (n : Nat) (cs : List Char) :
    escapedUnit n ++ cs = '\\' :: 'u' :: (hexadecimal 4 n ++ cs) := rfl

/-- A character is written as an escape that stands for it, or as itself. -/
theorem escaped_cases (c : Char) :
    (∃ code, escaped c = '\\' :: code ∧ ∀ rest, takeEscape? (code ++ rest) = some (c, rest)) ∨
      (escaped c = [c] ∧ c ≠ '"' ∧ c ≠ '\\' ∧ 0x20 ≤ c.toNat) := by
  unfold escaped
  split
  · rename_i hmark
    simp only [Bool.or_eq_true, decide_eq_true_eq] at hmark
    rcases hmark with rfl | rfl
    · exact .inl ⟨_, rfl, fun _ => rfl⟩
    · exact .inl ⟨_, rfl, fun _ => rfl⟩
  rename_i hmark
  simp only [Bool.or_eq_true, decide_eq_true_eq, not_or] at hmark
  -- The control characters that have a letter of their own.
  iterate 5
    split
    · rename_i hc
      subst hc
      exact .inl ⟨_, rfl, fun _ => rfl⟩
  split
  · rename_i hplain
    simp only [Bool.and_eq_true, decide_eq_true_eq] at hplain
    exact .inr ⟨rfl, hmark.1, hmark.2, hplain.1⟩
  split
  · rename_i hunit
    exact .inl ⟨_, rfl, takeEscape?_unit hunit⟩
  · rename_i hunit
    refine .inl ⟨_, escapedUnit_append _ _, fun rest => ?_⟩
    rw [List.cons_append, List.append_assoc]
    exact takeEscape?_pair (Nat.not_lt.mp hunit) rest

theorem takeChars?_escaped (c : Char) (n : Nat) (rest : List Char) :
    takeChars? (n + 1) (escaped c ++ rest) =
      (takeChars? n rest).map fun (ds, rest) => (c :: ds, rest) := by
  rcases escaped_cases c with ⟨code, hcode, htake⟩ | ⟨hself, hquote, hslash, hprint⟩
  · rw [hcode, List.cons_append, takeChars?_escape (htake rest)]
  · rw [hself, List.singleton_append, takeChars?_plain hquote hslash hprint]

theorem length_le_flatMap_escaped (cs : List Char) : cs.length ≤ (cs.flatMap escaped).length := by
  induction cs with
  | nil => exact Nat.le_refl 0
  | cons c cs ih =>
    have hpos : 0 < (escaped c).length := by
      rcases escaped_cases c with ⟨code, hcode, -⟩ | ⟨hself, -⟩
      · rw [hcode]
        exact Nat.succ_pos _
      · rw [hself]
        exact Nat.one_pos
    rw [List.flatMap_cons, List.length_append, List.length_cons]
    omega

theorem takeChars?_flatMap (cs : List Char) {n : Nat} (h : cs.length < n) (rest : List Char) :
    takeChars? n (cs.flatMap escaped ++ '"' :: rest) = some (cs, rest) := by
  -- One character is read from each escape, whatever it is, so the bound counts characters.
  induction cs generalizing n with
  | nil =>
    cases n with
    | zero => cases h
    | succ n => rfl
  | cons c cs ih =>
    cases n with
    | zero => cases h
    | succ n =>
      rw [List.flatMap_cons, List.append_assoc, takeChars?_escaped,
        ih (Nat.lt_of_succ_lt_succ h)]
      rfl

/-- A written text is read as itself, up to its closing quote. -/
theorem readText_writeText (s : String) (rest : List Char) :
    readText (s.toList.flatMap escaped ++ '"' :: rest) = .ok (s, rest) := by
  have hlength : s.toList.length < (s.toList.flatMap escaped ++ '"' :: rest).length := by
    have hle := length_le_flatMap_escaped s.toList
    rw [List.length_append, List.length_cons]
    omega
  unfold readText
  rw [takeChars?_flatMap s.toList hlength]
  dsimp only
  rw [String.ofList_toList]

end Json

end Spreadsheet
