import Spreadsheet.Proofs.Json.Texts
import Spreadsheet.Proofs.Json.Writable
import Spreadsheet.Proofs.Number.Literals

/-!
# Stored data is read back

What is written of data is read as the same data, in front of everything that does not go on with a
number. The text of a list or a table is longer than those of its members, so it is read with as many
levels as it has characters.
-/

namespace Spreadsheet

open Text

namespace Json

/-! ## What is written -/

def StartsData (cs : List Char) : Prop :=
  ∃ c ds, cs = c :: ds ∧ isSeparatorBlank c = false ∧ c ≠ ']' ∧ c ≠ '\x7d'

structure Stores (j : Json) (cs : List Char) : Prop where
  write_eq : write? j = some cs
  starts : StartsData cs
  read_eq : ∀ ⦃levels : Nat⦄ ⦃rest : List Char⦄, cs.length ≤ levels → NumberEnds rest →
    readValue levels (cs ++ rest) = .ok (j, rest)

theorem StartsData.append {cs : List Char} (h : StartsData cs) (rest : List Char) :
    StartsData (cs ++ rest) := by
  obtain ⟨c, ds, rfl, hc⟩ := h
  exact ⟨c, ds ++ rest, rfl, hc⟩

theorem StartsData.skipBlanks_eq {cs : List Char} (h : StartsData cs) : skipBlanks cs = cs := by
  obtain ⟨c, ds, rfl, hblank, -⟩ := h
  exact List.dropWhile_cons_of_neg (by simp [hblank])

theorem StartsData.length_pos {cs : List Char} (h : StartsData cs) : 0 < cs.length := by
  obtain ⟨c, ds, rfl, -⟩ := h
  exact Nat.succ_pos _

/-! ## Words and numbers -/

theorem exists_level {cs : List Char} {levels : Nat} (hstarts : StartsData cs)
    (h : cs.length ≤ levels) : ∃ n, levels = n + 1 :=
  ⟨levels - 1, by have := hstarts.length_pos; omega⟩

theorem stores_word {j : Json} {cs : List Char} (hwrite : write? j = some cs)
    (hstarts : StartsData cs)
    (h : ∀ inner rest, readValueOver inner (cs ++ rest) = .ok (j, rest)) : Stores j cs where
  write_eq := hwrite
  starts := hstarts
  read_eq levels rest hlevels _ := by
    obtain ⟨n, rfl⟩ := exists_level hstarts hlevels
    exact h (readValue n) rest

variable {c : Char}

theorem withSign_head (negative : Bool) (hc : isPlainDigit c = true) (cs : List Char) :
    ∀ d ∈ (withSign negative (c :: cs)).head?, d = '-' ∨ isPlainDigit d = true := by
  cases negative with
  | true =>
    rintro d ⟨⟩
    exact .inl rfl
  | false =>
    rintro d ⟨⟩
    exact .inr hc

/-- Only an infinity among the words starts like a number, and no digit follows its minus sign. -/
theorem find?_words (negative : Bool) (hc : isPlainDigit c = true) (cs : List Char) :
    (words.find? fun w => w.1.isPrefixOf (withSign negative (c :: cs))) = none := by
  have hother : ∀ d, isPlainDigit d = false → d ≠ c := fun d hd => (ne_of_isPlainDigit hc hd).symm
  have hI := hother 'I' rfl
  cases negative with
  | true => simp [words, withSign, hI]
  | false =>
    simp [words, withSign, hI, hother 'n' rfl, hother 't' rfl, hother 'f' rfl, hother 'N' rfl,
      hother '-' rfl]

/-- A sign and a digit start neither a word nor a text nor a list nor a table. -/
theorem readValueOver_number (inner : Reader Json) (negative : Bool) (hc : isPlainDigit c = true)
    (cs : List Char) :
    readValueOver inner (withSign negative (c :: cs)) =
      (readNumber (withSign negative (c :: cs))).map fun (n, rest) => (.number n, rest) := by
  have hhead := withSign_head negative hc cs
  have hwords := find?_words negative hc cs
  unfold readValueOver
  split
  · rename_i heq
    rw [heq] at hhead
    rcases hhead '"' rfl with h | h <;> cases h
  · rename_i heq
    rw [heq] at hhead
    rcases hhead '[' rfl with h | h <;> cases h
  · rename_i heq
    rw [heq] at hhead
    rcases hhead '\x7b' rfl with h | h <;> cases h
  · rw [hwords]

theorem startsData_number (negative : Bool) (hc : isPlainDigit c = true) (cs : List Char) :
    StartsData (withSign negative (c :: cs)) := by
  cases negative with
  | true => exact ⟨'-', c :: cs, rfl, by decide⟩
  | false =>
    have hne : ∀ d, isPlainDigit d = false → c ≠ d := fun d hd => ne_of_isPlainDigit hc hd
    refine ⟨c, cs, rfl, ?_, hne ']' rfl, hne '\x7d' rfl⟩
    simp [isSeparatorBlank, hne ' ' rfl, hne '\t' rfl, hne '\n' rfl, hne '\r' rfl]

/-- A number whose text starts with a digit behind its sign is stored if the text reads back. -/
theorem stores_number {n : Number} (negative : Bool) (hc : isPlainDigit c = true) {cs : List Char}
    (hwrite : writeNumber? n = some (withSign negative (c :: cs)))
    (hread : ∀ rest, NumberEnds rest →
      readNumber (withSign negative (c :: cs) ++ rest) = .ok (n, rest)) :
    Stores (.number n) (withSign negative (c :: cs)) where
  write_eq := hwrite
  starts := startsData_number negative hc cs
  read_eq levels rest hlevels hrest := by
    obtain ⟨inner, rfl⟩ := exists_level (startsData_number negative hc cs) hlevels
    have hread := hread rest hrest
    rw [withSign_append] at hread ⊢
    show readValueOver (readValue inner) (withSign negative (c :: (cs ++ rest))) = _
    rw [readValueOver_number _ _ hc]
    show (readNumber (withSign negative (c :: cs ++ rest))).map _ = _
    rw [hread]
    rfl

theorem exists_toDigits (n : Nat) :
    ∃ c cs, Nat.toDigits 10 n = c :: cs ∧ isPlainDigit c = true := by
  obtain ⟨c, cs, hdigits⟩ := List.exists_cons_of_ne_nil (Nat.toDigits_ne_nil (b := 10) (n := n))
  refine ⟨c, cs, hdigits, isPlainDigit_of_mem_toDigits (n := n) ?_⟩
  rw [hdigits]
  exact List.mem_cons_self

theorem exists_stores_integer {n : Int} (h : decimalLength n.natAbs ≤ maxDigits) :
    ∃ cs, Stores (.number (.integer n)) cs := by
  obtain ⟨c, ds, hdigits, hc⟩ := exists_toDigits n.natAbs
  have hwrite : writeNumber? (.integer n) = some (withSign (decide (n < 0)) (c :: ds)) := by
    show (integerText? n).map String.toList = _
    rw [integerText?_eq_withSign h, Option.map_some, String.toList_ofList, hdigits]
  refine ⟨_, stores_number (decide (n < 0)) hc hwrite fun rest hrest => ?_⟩
  rw [← hdigits]
  exact readNumber_toDigits h hrest

/-- The text of a decimal starts with a digit behind its sign. -/
theorem text_head (d : Decimal) :
    ∃ c cs, d.text.toList = withSign d.negative (c :: cs) ∧ isPlainDigit c = true := by
  obtain ⟨c, ds, hdigits, hc⟩ := exists_toDigits d.coefficient
  unfold Decimal.text
  dsimp only
  rw [String.toList_ofList, hdigits]
  show ∃ c' cs, withSign d.negative _ = withSign d.negative (c' :: cs) ∧ _
  split
  · unfold Decimal.positional
    dsimp only
    split
    · exact ⟨c, _, rfl, hc⟩
    split
    · rename_i hpoint
      obtain ⟨k, hk⟩ : ∃ k, ((c :: ds).length + d.exponent).toNat = k + 1 :=
        ⟨((c :: ds).length + d.exponent).toNat - 1, by omega⟩
      rw [hk]
      exact ⟨c, _, rfl, hc⟩
    · exact ⟨'0', _, rfl, rfl⟩
  · unfold Decimal.scientific
    cases ds with
    | nil => exact ⟨c, _, rfl, hc⟩
    | cons d ds => exact ⟨c, _, rfl, hc⟩

theorem exists_stores_double (x : Double) : ∃ cs, Stores (.number (.double x)) cs := by
  cases x with
  | nan => exact ⟨_, stores_word rfl ⟨_, _, rfl, by decide⟩ fun _ _ => rfl⟩
  | infinity s =>
    cases s with
    | true => exact ⟨_, stores_word rfl ⟨_, _, rfl, by decide⟩ fun _ _ => rfl⟩
    | false => exact ⟨_, stores_word rfl ⟨_, _, rfl, by decide⟩ fun _ _ => rfl⟩
  | finite s m =>
    obtain ⟨c, cs, htext, hc⟩ := text_head (Double.shortest s m)
    have hwrite : writeNumber? (.double (.finite s m)) =
        some (withSign (Double.shortest s m).negative (c :: cs)) := congrArg some htext
    refine ⟨_, stores_number _ hc hwrite fun rest hrest => ?_⟩
    have hread := readNumber_shortest s m hrest
    rw [htext] at hread
    exact hread

theorem exists_stores_number {n : Number} (h : n.IsShort) : ∃ cs, Stores (.number n) cs := by
  cases n with
  | integer n => exact exists_stores_integer h
  | double x => exact exists_stores_double x

theorem stores_null : Stores .null ['n', 'u', 'l', 'l'] :=
  stores_word rfl ⟨_, _, rfl, by decide⟩ fun _ _ => rfl

theorem stores_bool (value : Bool) : Stores (.bool value) (writeBool value) := by
  cases value with
  | true => exact stores_word rfl ⟨_, _, rfl, by decide⟩ fun _ _ => rfl
  | false => exact stores_word rfl ⟨_, _, rfl, by decide⟩ fun _ _ => rfl

theorem stores_text (s : String) : Stores (.text s) (writeText s) := by
  refine stores_word rfl ⟨_, _, rfl, by decide⟩ fun inner rest => ?_
  have hread := readText_writeText s rest
  show (readText (s.toList.flatMap escaped ++ ['"'] ++ rest)).map _ = _
  rw [List.append_assoc, List.singleton_append, hread]
  rfl

/-! ## Items and entries -/

structure ReadsAs (value : Reader Json) (j : Json) (cs : List Char) : Prop where
  starts : StartsData cs
  read_eq : ∀ ⦃rest : List Char⦄, NumberEnds rest → value (cs ++ rest) = .ok (j, rest)

theorem Stores.readsAs {j : Json} {cs : List Char} (h : Stores j cs) {levels : Nat}
    (hlevels : cs.length ≤ levels) : ReadsAs (readValue levels) j cs :=
  ⟨h.starts, fun _ hrest => h.read_eq hlevels hrest⟩

theorem numberEnds_cons {c : Char} (h : isPlainDigit c = false ∧ c ≠ '.' ∧ c ≠ 'e' ∧ c ≠ 'E')
    (cs : List Char) : NumberEnds (c :: cs) := by
  rintro _ ⟨⟩
  exact h

theorem skipBlanks_cons {c : Char} (h : isSeparatorBlank c = false) (cs : List Char) :
    skipBlanks (c :: cs) = c :: cs :=
  List.dropWhile_cons_of_neg (by simp [h])

theorem readItems_space (value : Reader Json) (n : Nat) (cs : List Char) :
    readItems value n (' ' :: cs) = readItems value n cs := by
  cases n <;> rfl

theorem readEntries_space (value : Reader Json) (n : Nat) (before : List (String × Json))
    (cs : List Char) : readEntries value n before (' ' :: cs) = readEntries value n before cs := by
  cases n <;> rfl

theorem separated_cons_cons (p q : List Char) (ps : List (List Char)) :
    separated (p :: q :: ps) = p ++ ',' :: ' ' :: separated (q :: ps) := rfl

theorem length_separated (p q : List Char) (ps : List (List Char)) :
    (separated (p :: q :: ps)).length = p.length + 2 + (separated (q :: ps)).length := by
  rw [separated_cons_cons, List.length_append, List.length_cons, List.length_cons]
  omega

theorem length_le_separated {part : List Char} {parts : List (List Char)} (h : part ∈ parts) :
    part.length ≤ (separated parts).length := by
  induction parts with
  | nil => cases h
  | cons p ps ih =>
    cases ps with
    | nil =>
      rw [List.mem_singleton.mp h]
      exact Nat.le_refl _
    | cons q qs =>
      rw [length_separated]
      rcases List.mem_cons.mp h with rfl | hrest
      · omega
      · have hle := ih hrest
        omega

theorem startsData_separated {part : List Char} (h : StartsData part) (parts : List (List Char)) :
    StartsData (separated (part :: parts)) := by
  cases parts with
  | nil => exact h
  | cons next parts => exact h.append _

/-- The items of a list are read one after the other up to the closing bracket. -/
theorem readItems_separated {value : Reader Json} {items : List Json} {parts : List (List Char)}
    (h : List.Forall₂ (ReadsAs value) items parts) (hne : items ≠ []) {n : Nat}
    (hn : (separated parts).length ≤ n) (rest : List Char) :
    readItems value n (separated parts ++ ']' :: rest) = .ok (items, rest) := by
  -- The bound is used up item by item, and each item is a character long at least.
  induction h generalizing n with
  | nil => exact absurd rfl hne
  | @cons item part items parts hpart hparts ih =>
    obtain ⟨n, rfl⟩ := exists_level (startsData_separated hpart.starts parts) hn
    cases hparts with
    | nil =>
      have hvalue := hpart.read_eq (numberEnds_cons (c := ']') (by decide) rest)
      show (value (skipBlanks (part ++ ']' :: rest)) >>= _) = _
      rw [(hpart.starts.append _).skipBlanks_eq, hvalue]
      rfl
    | @cons next nextPart others otherParts hnext hothers =>
      have hn' : (separated (nextPart :: otherParts)).length ≤ n := by
        rw [length_separated] at hn
        omega
      have hvalue := hpart.read_eq (numberEnds_cons (c := ',') (by decide)
        (' ' :: (separated (nextPart :: otherParts) ++ ']' :: rest)))
      have hrest := ih (List.cons_ne_nil _ _) hn'
      rw [separated_cons_cons, List.append_assoc]
      show (value (skipBlanks (part ++ _)) >>= _) = _
      rw [(hpart.starts.append _).skipBlanks_eq]
      rw [List.cons_append, List.cons_append, hvalue]
      show (readItems value n (' ' :: _) >>= _) = _
      rw [readItems_space, hrest]
      rfl

theorem insertEntry_new {key : String} (value : Json) {before : List (String × Json)}
    (h : key ∉ before.map Prod.fst) : insertEntry key value before = before ++ [(key, value)] := by
  -- No key on the way is the new one, so it gets to the end.
  induction before with
  | nil => rfl
  | cons e before ih =>
    rw [List.map_cons, List.mem_cons, not_or] at h
    obtain ⟨hne, hrest⟩ := h
    show (if e.1 = key then _ else _ :: insertEntry key value before) = _
    rw [if_neg (Ne.symm hne), ih hrest]
    rfl

def ReadsEntry (value : Reader Json) (e : String × Json) (cs : List Char) : Prop :=
  ∃ part, cs = writeEntry e.1 part ∧ ReadsAs value e.2 part

theorem startsData_writeEntry (key : String) (part : List Char) :
    StartsData (writeEntry key part) :=
  ⟨'"', _, rfl, by decide⟩

/-- One entry is read up to what follows its value. -/
theorem readEntries_entry {value : Reader Json} {key : String} {v : Json} {part : List Char}
    (h : ReadsAs value v part) (n : Nat) (before : List (String × Json)) {c : Char}
    (hc : isPlainDigit c = false ∧ c ≠ '.' ∧ c ≠ 'e' ∧ c ≠ 'E') (hblank : isSeparatorBlank c = false)
    (rest : List Char) :
    readEntries value (n + 1) before (writeEntry key part ++ c :: rest) =
      match c :: rest with
      | '\x7d' :: rest => .ok (insertEntry key v before, rest)
      | ',' :: rest => readEntries value n (insertEntry key v before) rest
      | _ => .error .malformed := by
  have hkey := readText_writeText key (':' :: ' ' :: (part ++ c :: rest))
  have hvalue := h.read_eq (numberEnds_cons hc rest)
  have hblanks : skipBlanks (' ' :: (part ++ c :: rest)) = part ++ c :: rest :=
    (h.starts.append _).skipBlanks_eq
  -- The entry is laid out character by character, then read key, colon and value in turn.
  have hentry : writeEntry key part ++ c :: rest =
      '"' :: (key.toList.flatMap escaped ++ '"' :: ':' :: ' ' :: (part ++ c :: rest)) := by
    simp [writeEntry, writeText]
  rw [hentry]
  show (readText _ >>= _) = _
  rw [hkey]
  show (value (skipBlanks (' ' :: (part ++ c :: rest))) >>= _) = _
  rw [hblanks, hvalue]
  show (match skipBlanks (c :: rest) with
    | '\x7d' :: rest => Except.ok (insertEntry key v before, rest)
    | ',' :: rest => readEntries value n (insertEntry key v before) rest
    | _ => .error .malformed) = _
  rw [skipBlanks_cons hblank]

/-- The entries of a table are read one after the other up to the closing brace. -/
theorem readEntries_separated {value : Reader Json} {entries : List (String × Json)}
    {parts : List (List Char)} (h : List.Forall₂ (ReadsEntry value) entries parts)
    (hne : entries ≠ []) {n : Nat} (hn : (separated parts).length ≤ n) {before : List (String × Json)}
    (hkeys : ((before ++ entries).map Prod.fst).Nodup) (rest : List Char) :
    readEntries value n before (separated parts ++ '\x7d' :: rest) =
      .ok (before ++ entries, rest) := by
  -- The entries so far grow at their end. That no key comes twice keeps each one from replacing
  -- another.
  induction h generalizing n before with
  | nil => exact absurd rfl hne
  | @cons e written entries parts he hparts ih =>
    obtain ⟨part, rfl, hpart⟩ := he
    obtain ⟨n, rfl⟩ := exists_level (startsData_separated (startsData_writeEntry e.1 part) parts) hn
    have hnew : e.1 ∉ before.map Prod.fst := by
      rw [List.map_append, List.map_cons, List.nodup_append] at hkeys
      exact fun hmem => hkeys.2.2 _ hmem _ List.mem_cons_self rfl
    cases hparts with
    | nil =>
      show readEntries value (n + 1) before (writeEntry e.1 part ++ '\x7d' :: rest) = _
      rw [readEntries_entry hpart n before (by decide) (by decide)]
      show Except.ok (insertEntry e.1 e.2 before, rest) = _
      rw [insertEntry_new e.2 hnew]
    | @cons next nextPart others otherParts hnext hothers =>
      have hn' : (separated (nextPart :: otherParts)).length ≤ n := by
        rw [length_separated] at hn
        omega
      rw [List.append_cons] at hkeys
      have hrest := ih (List.cons_ne_nil _ _) hn' hkeys
      rw [separated_cons_cons, List.append_assoc, List.cons_append,
        readEntries_entry hpart n before (by decide) (by decide)]
      show readEntries value n (insertEntry e.1 e.2 before)
        (' ' :: (separated (nextPart :: otherParts) ++ '\x7d' :: rest)) = _
      rw [readEntries_space, insertEntry_new e.2 hnew, hrest, ← List.append_cons]

/-! ## Lists and tables -/

variable {cs : List Char}

theorem readValueOver_list (inner : Reader Json) (h : StartsData cs) :
    readValueOver inner ('[' :: cs) =
      (readItems inner cs.length cs).map fun (found, rest) => (.list found, rest) := by
  obtain ⟨c, ds, rfl, hblank, hbracket, -⟩ := h
  unfold readValueOver
  split
  · rename_i heq
    cases heq
  · rename_i heq
    cases heq
    rw [skipBlanks_cons hblank]
    split
    · rename_i heq
      exact absurd (List.cons.inj heq).1 hbracket
    · rfl
  · rename_i heq
    cases heq
  · rename_i hlist _
    exact absurd rfl (hlist _)

theorem readValueOver_table (inner : Reader Json) (h : StartsData cs) :
    readValueOver inner ('\x7b' :: cs) =
      (readEntries inner cs.length [] cs).map fun (found, rest) => (.table found, rest) := by
  obtain ⟨c, ds, rfl, hblank, -, hbrace⟩ := h
  unfold readValueOver
  split
  · rename_i heq
    cases heq
  · rename_i heq
    cases heq
  · rename_i heq
    cases heq
    rw [skipBlanks_cons hblank]
    split
    · rename_i heq
      exact absurd (List.cons.inj heq).1 hbrace
    · rfl
  · rename_i htable
    exact absurd rfl (htable _)

def StoresEntry (e : String × Json) (cs : List Char) : Prop :=
  ∃ part, cs = writeEntry e.1 part ∧ Stores e.2 part

theorem length_le_writeEntry (key : String) (part : List Char) :
    part.length ≤ (writeEntry key part).length := by
  simp only [writeEntry, List.length_append, List.length_cons]
  omega

theorem stores_list {items : List Json} {parts : List (List Char)}
    (hwrite : writeItems? items = some parts) (h : List.Forall₂ Stores items parts) :
    Stores (.list items) (writeList parts) where
  write_eq := congrArg (Option.map writeList) hwrite
  starts := ⟨'[', _, rfl, by decide⟩
  read_eq levels rest hlevels _ := by
    obtain ⟨levels, rfl⟩ := exists_level ⟨'[', _, rfl, by decide⟩ hlevels
    have hlength : (separated parts).length ≤ levels := by
      simp only [writeList, List.cons_append, List.length_cons, List.length_append] at hlevels
      omega
    have hreads : List.Forall₂ (ReadsAs (readValue levels)) items parts :=
      forall₂_of_mem h fun _ _ hpart hstores =>
        hstores.readsAs (Nat.le_trans (length_le_separated hpart) hlength)
    have hbody : writeList parts ++ rest = '[' :: (separated parts ++ ']' :: rest) := by
      simp [writeList]
    rw [hbody]
    show readValueOver (readValue levels) _ = _
    cases hreads with
    | nil => rfl
    | @cons item part items parts hpart hparts =>
      have hstarts := (startsData_separated hpart.starts parts).append (']' :: rest)
      rw [readValueOver_list _ hstarts, readItems_separated (.cons hpart hparts)
        (List.cons_ne_nil _ _) (by rw [List.length_append]; omega)]
      rfl

theorem stores_table {entries : List (String × Json)} {parts : List (List Char)}
    (hwrite : writeEntries? entries = some parts) (h : List.Forall₂ StoresEntry entries parts)
    (hkeys : (entries.map Prod.fst).Nodup) : Stores (.table entries) (writeTable parts) where
  write_eq := congrArg (Option.map writeTable) hwrite
  starts := ⟨'\x7b', _, rfl, by decide⟩
  read_eq levels rest hlevels _ := by
    obtain ⟨levels, rfl⟩ := exists_level ⟨'\x7b', _, rfl, by decide⟩ hlevels
    -- There are as many levels as characters to read, and an entry is shorter than its table.
    have hlength : (separated parts).length ≤ levels := by
      simp only [writeTable, List.cons_append, List.length_cons, List.length_append] at hlevels
      omega
    have hreads : List.Forall₂ (ReadsEntry (readValue levels)) entries parts := by
      refine forall₂_of_mem h fun e written hwritten hstores => ?_
      obtain ⟨part, rfl, hpart⟩ := hstores
      have hentry := Nat.le_trans (length_le_separated hwritten) hlength
      exact ⟨part, rfl, hpart.readsAs (Nat.le_trans (length_le_writeEntry e.1 part) hentry)⟩
    have hbody : writeTable parts ++ rest = '\x7b' :: (separated parts ++ '\x7d' :: rest) := by
      simp [writeTable]
    rw [hbody]
    show readValueOver (readValue levels) _ = _
    cases hreads with
    | nil => rfl
    | @cons e written entries parts he hentries =>
      obtain ⟨part, rfl, hpart⟩ := he
      have hstarts := (startsData_separated (startsData_writeEntry e.1 part) parts).append
        ('\x7d' :: rest)
      rw [readValueOver_table _ hstarts, readEntries_separated (.cons ⟨part, rfl, hpart⟩ hentries)
        (List.cons_ne_nil _ _) (by rw [List.length_append]; omega) hkeys]
      rfl

/-! ## All data -/

mutual

/-- All data that can be written has a text that reads back. -/
theorem Writable.exists_stores : ∀ {j : Json}, Writable j → ∃ cs, Stores j cs
  | .null, _ => ⟨_, stores_null⟩
  | .bool value, _ => ⟨_, stores_bool value⟩
  | .number _, h => exists_stores_number h
  | .text s, _ => ⟨_, stores_text s⟩
  | .list _, h =>
    have ⟨_, hwrite, hstores⟩ := WritableItems.exists_stores h
    ⟨_, stores_list hwrite hstores⟩
  | .table _, h =>
    have ⟨_, hwrite, hstores⟩ := WritableEntries.exists_stores h.2
    ⟨_, stores_table hwrite hstores h.1⟩

theorem WritableItems.exists_stores : ∀ {items : List Json}, WritableItems items →
    ∃ parts, writeItems? items = some parts ∧ List.Forall₂ Stores items parts
  | [], _ => ⟨[], rfl, .nil⟩
  | item :: items, h => by
    obtain ⟨part, hpart⟩ := Writable.exists_stores h.1
    obtain ⟨parts, hwrite, hparts⟩ := WritableItems.exists_stores h.2
    refine ⟨part :: parts, ?_, .cons hpart hparts⟩
    unfold writeItems?
    rw [hpart.write_eq, hwrite]
    rfl

theorem WritableEntries.exists_stores : ∀ {entries : List (String × Json)},
    WritableEntries entries →
      ∃ parts, writeEntries? entries = some parts ∧ List.Forall₂ StoresEntry entries parts
  | [], _ => ⟨[], rfl, .nil⟩
  | (key, value) :: entries, h => by
    obtain ⟨part, hpart⟩ := Writable.exists_stores h.1
    obtain ⟨parts, hwrite, hparts⟩ := WritableEntries.exists_stores h.2
    refine ⟨writeEntry key part :: parts, ?_, .cons ⟨part, rfl, hpart⟩ hparts⟩
    unfold writeEntries?
    rw [hpart.write_eq, hwrite]
    rfl

end

/-- The text of data reads as this data. -/
theorem Stores.read_eq_ok {j : Json} {cs : List Char} (h : Stores j cs) :
    read (String.ofList cs) = .ok j := by
  have hend : NumberEnds [] := nofun
  have hread := h.read_eq (Nat.le_succ cs.length) hend
  unfold read
  dsimp only
  rw [String.toList_ofList, h.starts.skipBlanks_eq]
  rw [List.append_nil] at hread
  rw [hread]
  rfl

end Json

end Spreadsheet
