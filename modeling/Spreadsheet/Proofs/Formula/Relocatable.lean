import Spreadsheet.Proofs.Formula.Shifting
import Spreadsheet.Proofs.Formula.Words
import Spreadsheet.Proofs.Reference.RoundTrip

/-!
# Formulas that relocate

A formula of the basic range whose names are functions and references without anchors, and in which
no point stands before the letter of an exponent, moves as it should: only its references change, and
each of them means the cell that lies so many rows and columns further.
-/

namespace Spreadsheet

open Text Scanned Grammar Piece

variable {rows columns : Int}

/-! ## Numbers -/

/-- A digit of the basic range keeps a reference from starting behind it. -/
theorem joinsBefore_of_isDigit {c : Char} (h : isDigit c = true) (hbasic : c.toNat < 128) :
    joinsBefore c = true := by
  have hall : ∀ k < 128, isDigit (Char.ofNat k) = true → joinsBefore (Char.ofNat k) = true := by
    decide
  exact forall_of_basic (p := fun c => isDigit c = true → joinsBefore c = true) hall hbasic h

/-- No reference starts with an exponent that stands behind a plain digit, or with a small letter. -/
theorem reference_notMem_exponent {c : Char} {more : List Char} {previous : Option Char}
    (hc : c = 'e' ∨ c = 'E')
    (hmore : ∀ d ∈ more, Inert d)
    (hprevious : c = 'E' → previous.any joinsBefore = true) (r : Reference) :
    Piece.reference r ∉ piecesFrom previous (c :: more) := by
  have hpieces : piecesFrom previous (c :: more) = .verbatim [c] :: piecesFrom (some c) more := by
    rcases hc with rfl | rfl
    · exact piecesFrom_inert previous (by decide) more
    · exact piecesFrom_verbatim (by decide) (Or.inl (hprevious rfl))
  intro hr
  rw [hpieces] at hr
  rcases List.mem_cons.mp hr with hhead | hrest
  · cases hhead
  · exact reference_notMem_inert hmore (some c) r hrest

/-- No part of a number of the basic range is a reference, unless a point stands before the letter of
its exponent. -/
theorem reference_notMem_number {l : Lexeme} {cs : List Char}
    (hs : Scanned.number cs = .ok ⟨l, cs, []⟩) (hbasic : ∀ c ∈ cs, c.toNat < 128)
    (hpoint : ¬['.', 'E'] <:+: cs) (r : Reference) : Piece.reference r ∉ split cs := by
  obtain ⟨exponent, -, hany, hexponent, -, hspelling, -⟩ := number_eq_ok_iff.mp hs
  have hchars := takeMantissa_chars cs
  have hinert := inert_of_mem_mantissa cs
  dsimp only at hspelling hexponent
  generalize (takeMantissa cs).1 = mantissa at hany hspelling hchars hinert
  intro hr
  -- A reference lies in the mantissa or in the exponent, since the mantissa is inert.
  rw [hspelling] at hr
  change _ ∈ piecesFrom none (mantissa ++ exponent) at hr
  rw [piecesFrom_append_inert exponent hinert, List.mem_append] at hr
  rcases hr with hmantissa | hr
  · rw [← split_inert hinert] at hmantissa
    exact reference_notMem_inert hinert none r hmantissa
  · rcases takeExponent_cases hexponent with rfl | ⟨c, sign, digits, hc, rfl, hsign, -, hdigits⟩
    · cases hr
    · apply reference_notMem_exponent hc (inert_of_mem_exponent hsign hdigits) _ r hr
      · intro heq
        subst heq
        -- The mantissa ends with a digit, since a point there would stand before the letter.
        obtain ⟨front, last, rfl⟩ : ∃ front last, mantissa = front ++ [last] := by
          rcases List.eq_nil_or_concat mantissa with rfl | ⟨front, last, hconcat⟩
          · cases hany
          · exact ⟨front, last, by rw [hconcat, List.concat_eq_append]⟩
        have hlast : last ∈ front ++ [last] := by simp
        have hdigit : isDigit last = true := by
          rcases hchars last hlast with hdigit | rfl
          · exact hdigit
          · refine absurd ⟨front, sign ++ digits, ?_⟩ hpoint
            rw [hspelling]
            simp
        have hjoins := joinsBefore_of_isDigit hdigit
          (hbasic last (by rw [hspelling]; exact List.mem_append_left _ hlast))
        simp [hjoins]

/-! ## Formulas of functions and plain references -/

theorem Moves.self {ps : List Piece} (h : ∀ r, Piece.reference r ∉ ps) :
    Moves rows columns ps (ps.map Piece.text).flatten := by
  induction ps with
  | nil => exact .nil
  | cons p ps ih =>
    cases p with
    | verbatim text => exact .verbatim text (ih fun r hr => h r (List.mem_cons_of_mem _ hr))
    | reference r => exact absurd List.mem_cons_self (h r)

theorem shiftReferences_self {s : String} (h : ∀ r, Piece.reference r ∉ split s.toList) :
    shiftReferences s rows columns = .ok s := by
  have hmoves : Moves rows columns (split s.toList) _ := Moves.self h
  rw [flatten_split] at hmoves
  exact hmoves.shiftReferences_eq

def Lexeme.IsPlain : Lexeme → Prop
  | .number s => ¬['.', 'E'] <:+: s.toList
  | .identifier s => (Formula.functionNamed? s).isSome ∨ (isReference s.toList ∧ '$' ∉ s.toList)
  | _ => True

instance Lexeme.decidableIsPlain : (l : Lexeme) → Decidable l.IsPlain
  | .number s => inferInstanceAs (Decidable ¬['.', 'E'] <:+: s.toList)
  | .identifier s => inferInstanceAs (Decidable
      ((Formula.functionNamed? s).isSome ∨ (isReference s.toList ∧ '$' ∉ s.toList)))
  | .operator _ | .leftParen | .rightParen | .comma | .boolean _ | .string _ => isTrue trivial

/-- Whether a text of the basic range has plain lexemes and references that stay on the sheet when
they move. -/
structure Relocatable (rows columns : Int) (text : String) : Prop where
  basic : ∀ c ∈ text.toList, c.toNat < 128
  isPlain : ∀ ts, Token.scan text = .ok ts → ∀ l ∈ lexemes ts, l.IsPlain
  stays : ∀ r, Piece.reference r ∈ split text.toList →
    ∃ moved, r.shifted rows columns = .ok moved ∧ moved ≠ invalidReference

instance Relocatable.decidable (rows columns : Int) (text : String) :
    Decidable (Relocatable rows columns text) :=
  decidable_of_iff
    ((text.toList.all fun c => c.toNat < 128) = true ∧
      (∀ ts, Token.scan text = .ok ts → ∀ l ∈ lexemes ts, l.IsPlain) ∧
      ∀ r, Piece.reference r ∈ split text.toList →
        ∃ moved, r.shifted rows columns = .ok moved ∧ moved ≠ invalidReference)
    ⟨fun h => ⟨fun c hc => of_decide_eq_true (List.all_eq_true.mp h.1 c hc), h.2.1, h.2.2⟩,
      fun h => ⟨List.all_eq_true.mpr fun c hc => decide_eq_true (h.basic c hc), h.isPlain, h.stays⟩⟩

theorem any_isDecimal_of_functionNamed? {s : String} (h : (Formula.functionNamed? s).isSome) :
    s.toList.any isDecimal = false := by
  obtain ⟨f, hf⟩ := Option.isSome_iff_exists.mp h
  exact any_isDecimal_of_function (Formula.functionNamed?_eq_some_iff.mp hf)

theorem Lexeme.IsPlain.comesThrough {l : Lexeme} {spelling : List Char} (h : l.IsPlain)
    (hspells : l.Spells spelling) (hbasic : ∀ c ∈ spelling, c.toNat < 128) :
    l.ComesThrough rows columns := by
  cases l with
  | number s =>
    obtain ⟨rfl, hs⟩ := hspells.number
    have hself : (Lexeme.number (String.ofList spelling)).Spells
        (String.ofList spelling).toList := by
      rw [String.toList_ofList]
      exact hspells
    -- The only references in a number could be in its exponent, and they are not.
    have hpoint : ¬['.', 'E'] <:+: spelling := by
      rw [← String.toList_ofList (l := spelling)]
      exact h
    refine ⟨_, shiftReferences_self ?_, hself.scan, rfl⟩
    rw [String.toList_ofList]
    exact reference_notMem_number hs hbasic hpoint
  | identifier s =>
    intro hreference
    rcases h with hfunction | ⟨hs, -⟩
    · exact shiftReferences_self
        (reference_notMem_piecesFrom (any_isDecimal_of_functionNamed? hfunction) none)
    · rw [hs] at hreference
      cases hreference
  | _ => trivial

/-! ## Where the references of a formula go -/

/-- Whether a text, if it is a reference, means after its move the cell so many rows and columns
further. -/
def Relocates (rows columns : Int) (s : String) : Prop :=
  isReference s.toList = true → ∃ a moved : Address,
    Address.ofSpelling? s.toList = some a ∧
    Address.ofSpelling? (movedToken rows columns s).toList = some moved ∧
    0 < moved.row ∧ (moved.row : Int) = a.row + rows ∧
    (moved.column.index : Int) = a.column.index + columns

theorem relocates_of_moves {s moved : String} (hs : isReference s.toList = true)
    (hdollar : '$' ∉ s.toList) (hparts : ∀ c ∈ s.toList, isNamePart c = true)
    (h : Moves rows columns (split s.toList) moved.toList) : Relocates rows columns s := by
  obtain ⟨r, hform, hspelling, hsplit⟩ := split_of_isReference hs hparts
  intro _
  have hmoved := movedToken_of_moves hs h
  rw [hspelling] at hdollar
  rw [hsplit] at h
  generalize hout : moved.toList = out at h
  cases h with
  | reference hshifted hvalid hrest =>
    cases hrest
    obtain ⟨a, c, row, haddress, hpos, hrows, hcolumns, hdigits, rfl⟩ :=
      Reference.shifted_of_notMem hdollar hshifted hvalid
    refine ⟨a, ⟨row, c, false, false⟩, ?_, ?_, hpos, hrows, hcolumns⟩
    · rw [hspelling, ← Reference.address?_eq_ofSpelling? hform]
      exact haddress
    · rw [hmoved, hout, List.append_nil]
      exact Address.ofSpelling?_label false false c hdigits

namespace Relocatable

variable {text moved : String} {tree : Content}

theorem comesThrough (h : Relocatable rows columns text) {ts : List Token}
    (hscan : Token.scan text = .ok ts) (hcut : Cut text.toList (lexemes ts)) :
    ∀ l ∈ lexemes ts, l.ComesThrough rows columns := by
  intro l hl
  obtain ⟨spelling, hspells, hwithin⟩ := hcut.exists_spells l hl
  exact (h.isPlain ts hscan l hl).comesThrough hspells fun c hc => h.basic c (hwithin.subset hc)

theorem exists_moves (h : Relocatable rows columns text) :
    ∃ moved : String, Moves rows columns (split text.toList) moved.toList := by
  obtain ⟨out, hout⟩ := Moves.exists_of_forall h.stays
  refine ⟨String.ofList out, ?_⟩
  rw [String.toList_ofList]
  exact hout

/-- Moving a formula that relocates moves the references in its tree. -/
theorem parse_moved (h : Relocatable rows columns text) (hparse : Formula.parse text = .ok tree)
    (hmoves : Moves rows columns (split text.toList) moved.toList) :
    Formula.parse moved = .ok (tree.mapText (movedToken rows columns)) := by
  apply Formula.parse_moved_of_comesThrough hparse hmoves
  intro ts hts
  obtain ⟨us, hscan, -, hcut⟩ := Formula.cut_of_parse hparse
  rw [hscan] at hts
  cases hts
  exact h.comesThrough hscan hcut

/-- The texts in the tree of a formula that relocates mean the cells so many rows and columns
further. -/
theorem relocates (h : Relocatable rows columns text) (hparse : Formula.parse text = .ok tree) :
    ∀ s ∈ tree.texts, Relocates rows columns s := by
  obtain ⟨moved, hmoves⟩ := h.exists_moves
  obtain ⟨ts, hscan, htree, hcut⟩ := Formula.cut_of_parse hparse
  have hstay := numbersStay_of_comesThrough hcut (h.comesThrough hscan hcut)
  obtain ⟨ps, rfl, -, hps⟩ := Formula.exists_pairs_of_moves hcut hmoves hstay
  intro s hs hreference
  obtain ⟨l, hl, hword⟩ := mem_words.mp (Formula.texts_subset_of_ofTokens htree hs)
  obtain ⟨spelling, hspells, -⟩ := hcut.exists_spells l hl
  cases l with
  | identifier name =>
    cases hword
    obtain ⟨hlist, hparts⟩ := hspells.identifier
    rcases h.isPlain _ hscan _ hl with hfunction | ⟨-, hdollar⟩
    · have hnone := isReference_of_any_isDecimal (any_isDecimal_of_functionNamed? hfunction)
      rw [hreference] at hnone
      cases hnone
    · -- The name is that of a token, which moves to a token of the moved text.
      obtain ⟨t, ht, hlexeme⟩ := List.mem_map.mp hl
      obtain ⟨p, hp, rfl⟩ := List.mem_map.mp ht
      have hmovesTo := hps p hp
      rw [hlexeme] at hmovesTo
      obtain ⟨moved', -, hname⟩ := hmovesTo
      exact relocates_of_moves hreference hdollar (by rw [hlist]; exact hparts) hname hreference
  | string spelling' =>
    cases hword
    obtain ⟨rfl, q, rest, rfl, hq, -⟩ := hspells.string
    rw [String.toList_ofList, isReference_of_isMark hq] at hreference
    cases hreference
  | boolean value =>
    cases hword
    rw [isReference_booleanWord] at hreference
    cases hreference
  | _ => cases hword

end Relocatable

end Spreadsheet
