import Spreadsheet.Proofs.Json.Numbers
import Spreadsheet.Proofs.Results

/-!
# Data that can be written

Data can be written if its whole numbers are short enough and no key of a table occurs twice. All data
that was read is such data: the reader counts digits, and a key that it meets again keeps its place.
-/

namespace Spreadsheet

open Text

def Number.IsShort : Number → Prop
  | .integer n => decimalLength n.natAbs ≤ maxDigits
  | .double _ => True

theorem decimalValue_lt (cs : List Char) : decimalValue cs < tenPow cs.length := by
  -- The first digit stands in front of all others, which make less than its unit.
  induction cs with
  | nil => exact Nat.one_pos
  | cons c cs ih =>
    have hdigit : decimalValue [c] < 10 := by
      show 10 * 0 + (digitValue? c).getD 0 < 10
      cases hc : digitValue? c with
      | none => decide
      | some d =>
        have hlt := digitValue?_lt hc
        show 10 * 0 + d < 10
        omega
    have hle : decimalValue [c] * tenPow cs.length ≤ 9 * tenPow cs.length :=
      Nat.mul_le_mul_right _ (Nat.le_of_lt_succ hdigit)
    have hcons := decimalValue_append [c] cs
    rw [List.singleton_append] at hcons
    rw [hcons, List.length_cons, tenPow_succ]
    omega

theorem decimalLength_decimalValue_le {cs : List Char} {k : Nat} (hk : 0 < k)
    (h : cs.length ≤ k) : decimalLength (decimalValue cs) ≤ k := by
  have hpower : tenPow cs.length ≤ tenPow k := Nat.pow_le_pow_right (by decide) h
  exact Double.decimalLength_le hk (Nat.lt_of_lt_of_le (decimalValue_lt cs) hpower)

/-- Digits that are not too many write a number that can be written. -/
theorem isShort_decimalValue (negative : Bool) {cs : List Char} (h : cs.length ≤ maxDigits) :
    (Number.integer (if negative then -(decimalValue cs : Int) else decimalValue cs)).IsShort := by
  have hlength : decimalLength (decimalValue cs) ≤ maxDigits :=
    decimalLength_decimalValue_le (by decide) h
  cases negative with
  | true =>
    show decimalLength (-(decimalValue cs : Int)).natAbs ≤ maxDigits
    rw [Int.natAbs_neg]
    exact hlength
  | false => exact hlength

namespace Json

mutual

def Writable : Json → Prop
  | .number n => n.IsShort
  | .list items => WritableItems items
  | .table entries => (entries.map Prod.fst).Nodup ∧ WritableEntries entries
  | _ => True

def WritableItems : List Json → Prop
  | [] => True
  | item :: items => Writable item ∧ WritableItems items

def WritableEntries : List (String × Json) → Prop
  | [] => True
  | (_, value) :: entries => Writable value ∧ WritableEntries entries

end

/-! ## Numbers -/

theorem readNumber_cases (cs : List Char) :
    ∃ negative body, cs = withSign negative body ∧ readNumber cs = readUnsigned negative body := by
  unfold readNumber
  split
  rename_i hsign
  split at hsign
  · cases hsign
    exact ⟨true, _, rfl, rfl⟩
  · cases hsign
    exact ⟨false, _, rfl, rfl⟩

theorem isShort_of_readNumber {cs rest : List Char} {n : Number}
    (h : readNumber cs = .ok (n, rest)) : n.IsShort := by
  obtain ⟨negative, body, -, hread⟩ := readNumber_cases cs
  rw [hread] at h
  unfold readUnsigned at h
  split at h
  · cases h
  · dsimp only at h
    split at h
    · split at h
      · cases h
      · rename_i hlength
        cases h
        exact isShort_decimalValue negative (Nat.not_lt.mp hlength)
    · cases h
      exact trivial

/-! ## Tables -/

variable {key : String} {value : Json} {entries : List (String × Json)}

theorem mem_keys_insertEntry {k : String}
    (h : k ∈ (insertEntry key value entries).map Prod.fst) :
    k = key ∨ k ∈ entries.map Prod.fst := by
  -- The entry takes the place of the one with its key, or goes to the end.
  induction entries with
  | nil => exact .inl (List.mem_singleton.mp h)
  | cons e entries ih =>
    unfold insertEntry at h
    split at h
    · rcases List.mem_cons.mp h with rfl | hrest
      · exact .inl rfl
      · exact .inr (List.mem_cons_of_mem _ hrest)
    · rcases List.mem_cons.mp h with rfl | hrest
      · exact .inr List.mem_cons_self
      · exact (ih hrest).imp_right (List.mem_cons_of_mem _)

theorem nodup_insertEntry (h : (entries.map Prod.fst).Nodup) :
    ((insertEntry key value entries).map Prod.fst).Nodup := by
  -- The key stays where it is, or it passes an entry with another one.
  induction entries with
  | nil => exact List.nodup_cons.mpr ⟨List.not_mem_nil, List.nodup_nil⟩
  | cons e entries ih =>
    obtain ⟨hnew, hrest⟩ := List.nodup_cons.mp h
    unfold insertEntry
    split
    · rename_i hkey
      subst hkey
      exact h
    · rename_i hkey
      refine List.nodup_cons.mpr ⟨fun hmem => ?_, ih hrest⟩
      rcases mem_keys_insertEntry hmem with heq | hold
      · exact hkey heq
      · exact hnew hold

theorem writableEntries_insertEntry (hvalue : Writable value) (h : WritableEntries entries) :
    WritableEntries (insertEntry key value entries) := by
  induction entries with
  | nil => exact ⟨hvalue, trivial⟩
  | cons e entries ih =>
    unfold insertEntry
    split
    · exact ⟨hvalue, h.2⟩
    · exact ⟨h.1, ih h.2⟩

/-! ## Reading -/

def GivesWritable (read : Reader Json) : Prop :=
  ∀ cs j rest, read cs = .ok (j, rest) → Writable j

variable {inner : Reader Json}

theorem writable_of_readItems (hinner : GivesWritable inner) {n : Nat} {cs rest : List Char}
    {items : List Json} (h : readItems inner n cs = .ok (items, rest)) : WritableItems items := by
  -- On the bound. Each item that is read can be written, and so can those behind it.
  induction n generalizing cs items with
  | zero => cases h
  | succ n ih =>
    obtain ⟨⟨item, behind⟩, hitem, h⟩ := bind_eq_ok h
    have hwritable := hinner _ _ _ hitem
    dsimp only at h
    split at h
    · cases h
      exact ⟨hwritable, trivial⟩
    · obtain ⟨⟨others, last⟩, hothers, h⟩ := bind_eq_ok h
      cases h
      exact ⟨hwritable, ih hothers⟩
    · cases h

theorem writable_of_readEntries (hinner : GivesWritable inner) {n : Nat}
    {before found : List (String × Json)} {cs rest : List Char}
    (h : readEntries inner n before cs = .ok (found, rest)) (hbefore : Writable (.table before)) :
    Writable (.table found) := by
  -- The invariant is that the entries so far can be written, whichever of them have been replaced.
  induction n generalizing before cs with
  | zero => cases h
  | succ n ih =>
    unfold readEntries at h
    split at h
    · obtain ⟨⟨key, behind⟩, -, h⟩ := bind_eq_ok h
      dsimp only at h
      split at h
      · obtain ⟨⟨value, behind⟩, hvalue, h⟩ := bind_eq_ok h
        have hsofar : Writable (.table (insertEntry key value before)) :=
          ⟨nodup_insertEntry hbefore.1,
            writableEntries_insertEntry (hinner _ _ _ hvalue) hbefore.2⟩
        dsimp only at h
        split at h
        · cases h
          exact hsofar
        · exact ih h hsofar
        · cases h
      · cases h
    · cases h

theorem writable_of_words : ∀ w ∈ words, Writable w.2 := by
  simp [words, Writable, Number.nan, Number.IsShort]

theorem givesWritable_readValueOver (hinner : GivesWritable inner) :
    GivesWritable (readValueOver inner) := by
  intro cs j rest h
  unfold readValueOver at h
  split at h
  · obtain ⟨⟨s, behind⟩, -, h⟩ := map_eq_ok h
    cases h
    exact trivial
  · split at h
    · cases h
      exact trivial
    · obtain ⟨⟨items, behind⟩, hitems, h⟩ := map_eq_ok h
      cases h
      exact writable_of_readItems hinner hitems
  · split at h
    · cases h
      exact ⟨List.nodup_nil, trivial⟩
    · obtain ⟨⟨entries, behind⟩, hentries, h⟩ := map_eq_ok h
      cases h
      exact writable_of_readEntries hinner hentries ⟨List.nodup_nil, trivial⟩
  · split at h
    · rename_i hword
      cases h
      exact writable_of_words _ (List.mem_of_find?_eq_some hword)
    · obtain ⟨⟨n, behind⟩, hnumber, h⟩ := map_eq_ok h
      cases h
      exact isShort_of_readNumber hnumber

theorem givesWritable_readValue (levels : Nat) : GivesWritable (readValue levels) := by
  -- What lists and tables hold is read on the level below.
  induction levels with
  | zero => nofun
  | succ levels ih => exact givesWritable_readValueOver ih

theorem writable_of_read {s : String} {j : Json} (h : read s = .ok j) : Writable j := by
  unfold read at h
  dsimp only at h
  split at h
  · cases h
  · rename_i hvalue
    split at h
    · cases h
      exact givesWritable_readValue _ _ _ _ hvalue
    · cases h

end Json

end Spreadsheet
