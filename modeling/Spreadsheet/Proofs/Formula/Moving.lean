import Spreadsheet.Proofs.Formula.Cutting
import Spreadsheet.Proofs.Reference.Pieces

/-!
# Lexemes that move

The references of a formula move lexeme by lexeme. Operators, strings and truth values stay as they
are, and a name stays a name. A number in which an exponent is taken for a reference stays a number
only as long as its letter stays.
-/

namespace Spreadsheet

open Text Scanned Grammar Piece

/-! ## The pieces of a lexeme -/

namespace Piece

theorem piecesFrom_append_inert {part : List Char} (rest : List Char) (h : ∀ c ∈ part, Inert c)
    (previous : Option Char) :
    piecesFrom previous (part ++ rest) =
      part.map (fun c => .verbatim [c]) ++ piecesFrom (part.getLast?.or previous) rest := by
  -- Every character is a piece by itself, and the last one is what the rest stands behind.
  induction part generalizing previous with
  | nil => rfl
  | cons c cs ih =>
    obtain ⟨hc, hrest⟩ := List.forall_mem_cons.mp h
    rw [List.cons_append, piecesFrom_inert previous hc, ih hrest]
    simp [List.getLast?_cons, Option.or_some]

theorem piecesFrom_of_inert {part : List Char} (h : ∀ c ∈ part, Inert c)
    (previous : Option Char) : piecesFrom previous part = part.map fun c => .verbatim [c] := by
  have hpieces := piecesFrom_append_inert [] h previous
  rw [List.append_nil, piecesFrom_nil, List.append_nil] at hpieces
  exact hpieces

theorem split_inert {part : List Char} (h : ∀ c ∈ part, Inert c) :
    split part = part.map fun c => .verbatim [c] :=
  piecesFrom_of_inert h none

theorem reference_notMem_inert {part : List Char} (h : ∀ c ∈ part, Inert c)
    (previous : Option Char) (r : Reference) : Piece.reference r ∉ piecesFrom previous part := by
  intro hr
  rw [piecesFrom_of_inert h] at hr
  obtain ⟨c, -, hc⟩ := List.mem_map.mp hr
  cases hc

theorem getLast?_or {part : List Char} (h : part ≠ []) (previous : Option Char) :
    part.getLast?.or previous = part.getLast? := by
  rw [List.getLast?_eq_some_getLast h]
  rfl

end Piece

/-- The characters of a number that are no exponent letter are inert. -/
theorem inert_of_isDigit {c : Char} (h : isDigit c = true) : Inert c := by
  refine ⟨isMark_of_isNamePart (isNamePart_of_isDigit h), ?_, ?_⟩
  · exact eq_false_of_imp_false isDigit_of_isCapital h
  · intro heq
    rw [heq] at h
    exact absurd h (by decide)

theorem inert_of_mem_mantissa (cs : List Char) : ∀ c ∈ (takeMantissa cs).1, Inert c := by
  intro c hc
  rcases takeMantissa_chars cs c hc with hdigit | hpoint
  · exact inert_of_isDigit hdigit
  · rw [hpoint]
    decide

/-- So are those behind the letter of an exponent. -/
theorem inert_of_mem_exponent {sign digits : List Char} (hsign : ∀ d ∈ sign, d = '+' ∨ d = '-')
    (hdigits : ∀ d ∈ digits, isDigit d = true) : ∀ d ∈ sign ++ digits, Inert d := by
  intro d hd
  rcases List.mem_append.mp hd with hd | hd
  · rcases hsign d hd with rfl | rfl <;> decide
  · exact inert_of_isDigit (hdigits d hd)

theorem inert_of_symbol {spelling : List Char} {l : Lexeme} (h : (spelling, l) ∈ symbols) :
    ∀ c ∈ spelling, Inert c := by
  have hall : ∀ entry ∈ symbols, entry.1.all (fun c => decide (Inert c)) = true := by
    decide
  intro c hc
  exact of_decide_eq_true (List.all_eq_true.mp (hall _ h) c hc)

theorem isMark_of_mem_number {cs : List Char} {s : Scanned} (h : number cs = .ok s) :
    ∀ c ∈ s.spelling, isMark c = false := by
  obtain ⟨exponent, -, -, hexponent, -, hspelling, -⟩ := number_eq_ok_iff.mp h
  intro c hc
  rw [hspelling, List.mem_append] at hc
  rcases hc with hmantissa | hexp
  · exact (inert_of_mem_mantissa cs c hmantissa).isMark_eq
  · rcases takeExponent_cases hexponent with rfl | ⟨e, sign, digits, he, rfl, hsign, -, hdigits⟩
    · cases hexp
    · rcases List.mem_cons.mp hexp with rfl | hexp
      · rcases he with rfl | rfl <;> rfl
      · exact (inert_of_mem_exponent hsign hdigits c hexp).isMark_eq

namespace Piece

theorem head_of_number {cs : List Char} {s : Scanned} (h : number cs = .ok s) :
    ∀ c ∈ s.spelling.head?, Inert c := by
  obtain ⟨exponent, -, hany, -, -, hspelling, -⟩ := number_eq_ok_iff.mp h
  have hinert := inert_of_mem_mantissa cs
  intro c hc
  rw [hspelling] at hc
  cases hmantissa : (takeMantissa cs).1 with
  | nil =>
    rw [hmantissa] at hany
    cases hany
  | cons d ds =>
    rw [hmantissa] at hc hinert
    cases hc
    exact hinert c List.mem_cons_self

theorem takeLiteral?_self {q : Char} {text : List Char} (hq : isMark q = true)
    (hclosing : takeClosing? q text = some (text, [])) :
    takeLiteral? (q :: text) = some (q :: text, []) := by
  simp only [takeLiteral?, takeQuoted?_cons hq, hclosing, Option.map_some]

/-- A quoted text is one piece, if the text does not go on with its mark. -/
theorem piecesFrom_string {q : Char} {text rest : List Char} (hq : isMark q = true)
    (hclosing : takeClosing? q text = some (text, [])) (hmore : ∀ c ∈ rest.head?, c ≠ q)
    (previous : Option Char) :
    piecesFrom previous (q :: text ++ rest) =
      split (q :: text) ++ piecesFrom (q :: text).getLast? rest := by
  have hwhole : takeLiteral? (q :: text ++ rest) = some (q :: text, rest) := by
    simp only [takeLiteral?, List.cons_append, takeQuoted?_cons hq,
      takeClosing?_append_of_head hclosing hmore, Option.map_some, List.nil_append]
  rw [piecesFrom_literal previous hwhole]
  show _ = piecesFrom none (q :: text) ++ _
  rw [piecesFrom_literal none (takeLiteral?_self hq hclosing), piecesFrom_nil]
  rfl

/-- What stands apart from a number neither goes on with a name nor opens a call. -/
theorem ends_of_number {s : String} {part rest : List Char}
    (hapart : (Lexeme.number s).Apart rest) : Ends part rest := by
  intro c hc
  obtain ⟨hpart, -, hcall⟩ := hapart.number c hc
  exact ⟨hpart, fun hparen => absurd hparen hcall⟩

/-- What stands apart from a name does not go on with it, and it calls no name with digits. -/
theorem ends_of_name {spelling rest : List Char} (hapart : (nameLexeme spelling).Apart rest) :
    Ends spelling rest := by
  intro d hd
  have hjoins := hapart d hd
  refine ⟨isNamePart_of_joins_nameLexeme hjoins, ?_⟩
  intro hparen
  subst hparen
  rcases nameLexeme_cases spelling with ⟨value, hname, -⟩ | ⟨hname, -⟩
  · rw [hname] at hjoins
    cases hjoins
  · rw [hname] at hjoins
    simp only [Lexeme.joins, String.toList_ofList, decide_true, Bool.true_and,
      Bool.or_eq_false_iff] at hjoins
    exact hjoins.2

/-- A lexeme that stands apart has pieces of its own, unless a name before it goes on with it. -/
theorem piecesFrom_spelling {l : Lexeme} {spelling rest : List Char} {previous : Option Char}
    (hspells : l.Spells spelling) (hapart : l.Apart rest)
    (hprevious : previous.any joinsBefore = true →
      ∀ c ∈ spelling.head?, isNameStart c = false) :
    piecesFrom previous (spelling ++ rest) =
      split spelling ++ piecesFrom spelling.getLast? rest := by
  have hlast := getLast?_or hspells.ne_nil previous
  rcases hspells.cases with ⟨q, text, rfl, hq, hclosing, rfl⟩ | ⟨hs, rfl⟩ |
    ⟨c, cs, rfl, hstart, -, hparts, rfl⟩ | hs
  · exact piecesFrom_string hq hclosing hapart.string previous
  · -- A number starts with no letter, so it does not matter what precedes it.
    rw [piecesFrom_append (isMark_of_mem_number hs) (ends_of_number hapart), hlast,
      piecesFrom_of_joinsBefore (Or.inr (head_of_number hs))]
    rfl
  · -- No name goes on into a name, since the one before would have taken its characters.
    have hnot : previous.any joinsBefore = false :=
      eq_false_of_imp_false (fun hjoins => hprevious hjoins c rfl) hstart
    rw [piecesFrom_append (fun d hd => isMark_of_isNamePart (hparts d hd)) (ends_of_name hapart),
      hlast, piecesFrom_of_joinsBefore (Or.inl hnot)]
    rfl
  · rw [piecesFrom_append_inert rest (inert_of_symbol hs), split_inert (inert_of_symbol hs), hlast]

/-- No name starts behind a lexeme that ends like one. -/
theorem isNameStart_of_apart {l : Lexeme} {spelling rest : List Char} (hspells : l.Spells spelling)
    (hapart : l.Apart rest) (hlast : spelling.getLast?.any joinsBefore = true) :
    ∀ c ∈ rest.head?, isNameStart c = false := by
  obtain ⟨last, hmem, hjoins⟩ := (Option.any_eq_true _ _).mp hlast
  have hlastpart := isNamePart_of_joinsBefore hjoins
  have hpart : ∀ c ∈ rest.head?, isNamePart c = false := by
    intro c hc
    rcases hspells.cases with ⟨q, text, rfl, hq, hclosing, -⟩ | ⟨-, rfl⟩ | ⟨_, _, -, -, -, -, rfl⟩ |
      hs
    · -- A quoted text ends with its mark, which belongs to no name.
      rw [List.getLast?_cons, takeClosing?_getLast hclosing] at hmem
      cases hmem
      change isNamePart q = true at hlastpart
      rw [isNamePart_of_isMark hq] at hlastpart
      cases hlastpart
    · exact (hapart.number c hc).1
    · exact isNamePart_of_joins_nameLexeme (hapart c hc)
    · rw [(isSpace_of_symbol hs last (List.mem_of_getLast? hmem)).2.1] at hlastpart
      cases hlastpart
  intro c hc
  exact eq_false_of_imp isNamePart_of_isNameStart (hpart c hc)

end Piece

/-! ## What a lexeme becomes -/

variable {rows columns : Int}

def Lexeme.MovesTo (rows columns : Int) : Lexeme → Lexeme → Prop
  | .number s, m => ∃ moved : String, m = .number moved ∧
      Moves rows columns (split s.toList) moved.toList
  | .identifier s, m => ∃ moved : String, m = .identifier moved ∧
      Moves rows columns (split s.toList) moved.toList
  | l, m => m = l

/-- Only a number becomes a number. -/
theorem Lexeme.MovesTo.of_number {l : Lexeme} {moved : String}
    (h : l.MovesTo rows columns (.number moved)) :
    ∃ s, l = .number s ∧ Moves rows columns (split s.toList) moved.toList := by
  cases l with
  | number s =>
    obtain ⟨moved', heq, hmoves⟩ := h
    cases heq
    exact ⟨s, rfl, hmoves⟩
  | identifier s =>
    obtain ⟨moved', heq, -⟩ := h
    cases heq
  | _ => cases h

namespace Moves

theorem eq_of_split {cs out : List Char} (h : Moves rows columns (split cs) out)
    (hcs : ∀ r, Piece.reference r ∉ split cs) : out = cs := by
  rw [h.eq_of_verbatim hcs, flatten_split]

theorem eq_of_any_isDecimal {cs out : List Char} (h : Moves rows columns (split cs) out)
    (hcs : cs.any isDecimal = false) : out = cs :=
  h.eq_of_split (reference_notMem_piecesFrom hcs none)

theorem eq_of_inert {cs out : List Char} {previous : Option Char} (hcs : ∀ c ∈ cs, Inert c)
    (h : Moves rows columns (piecesFrom previous cs) out) : out = cs := by
  rw [h.eq_of_verbatim (reference_notMem_inert hcs previous), flatten_piecesFrom]

theorem eq_of_string {q : Char} {text out : List Char} (hq : isMark q = true)
    (hclosing : takeClosing? q text = some (text, []))
    (h : Moves rows columns (split (q :: text)) out) : out = q :: text := by
  refine h.eq_of_split fun r hr => ?_
  change _ ∈ piecesFrom none (q :: text) at hr
  rw [piecesFrom_literal none (takeLiteral?_self hq hclosing), piecesFrom_nil] at hr
  cases List.mem_singleton.mp hr

end Moves

theorem any_isDecimal_booleanWord (value : Bool) :
    (booleanWord value).toList.any isDecimal = false := by
  cases value <;> decide

theorem any_isDecimal_of_booleanWord {cs : List Char} {value : Bool}
    (h : String.ofList (capitals cs) = booleanWord value) : cs.any isDecimal = false := by
  rw [List.any_eq_false]
  intro c hc hdecimal
  -- A digit would still be there in capital letters, but neither word has one.
  have hmem := mem_capitals_of_isDecimal hc hdecimal
  have hword : capitals cs = (booleanWord value).toList := by rw [← h, String.toList_ofList]
  rw [hword] at hmem
  exact List.any_eq_false.mp (any_isDecimal_booleanWord value) c hmem hdecimal

/-- A name of characters that start and go on a name, with digits, is an identifier. -/
theorem nameLexeme_of_isDecimal {cs : List Char} {c : Char} (hmem : c ∈ cs)
    (hc : isDecimal c = true) : nameLexeme cs = .identifier (String.ofList cs) := by
  rcases nameLexeme_cases cs with ⟨value, -, hword⟩ | ⟨hname, -⟩
  · have hany := any_isDecimal_of_booleanWord hword
    rw [List.any_eq_false] at hany
    exact absurd hc (hany c hmem)
  · exact hname

theorem spells_name_of_moves {c : Char} {cs out : List Char} (hstart : isNameStart c = true)
    (hdigit : (isDigit c || c = '.') = false) (hparts : ∀ d ∈ c :: cs, isNamePart d = true)
    (h : Moves rows columns (split (c :: cs)) out) : (nameLexeme out).Spells out := by
  have hout : ∀ d ∈ out, isNamePart d = true := by
    refine h.isNamePart_of_mem fun text htext d hd => hparts d ?_
    exact mem_of_mem_piecesFrom htext hd
  -- The first character still starts a name, whether it stays or a reference has moved there.
  rcases h.head_eq_or_isNameStart with hhead | ⟨-, d, -, hhead, -, hd⟩
  · obtain ⟨ds, rfl⟩ := List.head?_eq_some_iff.mp hhead
    exact Lexeme.spells_name hstart hdigit hout
  · obtain ⟨ds, rfl⟩ := List.head?_eq_some_iff.mp hhead
    exact Lexeme.spells_name (isNameStart_of_start hd) (isDigit_of_start hd) hout

/-- A lexeme moves to a lexeme, if it is no number that stops being one. -/
theorem Lexeme.Spells.moves {l : Lexeme} {spelling out : List Char} (hspells : l.Spells spelling)
    (h : Moves rows columns (split spelling) out)
    (hnumber : ∀ s, l = .number s → (Lexeme.number (String.ofList out)).Spells out) :
    ∃ m, l.MovesTo rows columns m ∧ m.Spells out := by
  rcases hspells.cases with ⟨q, text, rfl, hq, hclosing, rfl⟩ | ⟨-, rfl⟩ |
    ⟨c, cs, rfl, hstart, hdigit, hparts, rfl⟩ | hs
  · rw [h.eq_of_string hq hclosing]
    exact ⟨_, rfl, hspells⟩
  · refine ⟨.number (String.ofList out), ⟨String.ofList out, rfl, ?_⟩, hnumber _ rfl⟩
    rw [String.toList_ofList, String.toList_ofList]
    exact h
  · rcases nameLexeme_cases (c :: cs) with ⟨value, hname, hword⟩ | ⟨hname, hnone⟩
    · rw [h.eq_of_any_isDecimal (any_isDecimal_of_booleanWord hword)]
      refine ⟨nameLexeme (c :: cs), ?_, hspells⟩
      rw [hname]
      rfl
    · -- A name that changes gets digits, so it does not become a truth value.
      have hout : nameLexeme out = .identifier (String.ofList out) := by
        rcases h.eq_or_exists_decimal with heq | ⟨d, hmem, hd⟩
        · rw [heq, flatten_split]
          exact hname
        · exact nameLexeme_of_isDecimal hmem hd
      refine ⟨nameLexeme out, ?_, spells_name_of_moves hstart hdigit hparts h⟩
      rw [hname, hout]
      refine ⟨String.ofList out, rfl, ?_⟩
      rw [String.toList_ofList, String.toList_ofList]
      exact h
  · -- Neither a number nor a name, so what it becomes is itself.
    rw [Moves.eq_of_inert (inert_of_symbol hs) h]
    refine ⟨l, ?_, hspells⟩
    have hoperand := isOperand_of_symbol hs
    cases l with
    | number s => cases hoperand
    | identifier s => cases hoperand
    | _ => rfl

/-- What a lexeme becomes joins no character that the lexeme does not join. -/
theorem Lexeme.MovesTo.joins_eq_false {l m : Lexeme} {c : Char} (hl : l.MovesTo rows columns m)
    (h : l.joins c = false) : m.joins c = false := by
  cases l with
  | number s =>
    obtain ⟨moved, rfl, -⟩ := hl
    exact h
  | identifier s =>
    obtain ⟨moved, rfl, hmoves⟩ := hl
    simp only [Lexeme.joins, Bool.or_eq_false_iff, Bool.and_eq_false_iff] at h ⊢
    refine ⟨h.1, ?_⟩
    rcases h.2 with hparen | hany
    · exact Or.inl hparen
    · -- A name without digits holds no reference.
      rw [hmoves.eq_of_any_isDecimal hany]
      exact Or.inr hany
  | _ =>
    obtain rfl := hl
    exact h

/-- A lexeme that joins no character of one name joins no character of another, once it has moved. -/
theorem Lexeme.MovesTo.joins_of_isNamePart {l m : Lexeme} {spelling : List Char} {c d : Char}
    (hspells : l.Spells spelling) (hl : l.MovesTo rows columns m) (hc : isNamePart c = true)
    (hd : isNamePart d = true) (h : l.joins c = false) : m.joins d = false := by
  cases l with
  | number s => simp [Lexeme.joins, hc] at h
  | identifier s => simp [Lexeme.joins, hc] at h
  | boolean value => simp [Lexeme.joins, hc] at h
  | string s =>
    obtain rfl := hl
    obtain ⟨rfl, q, text, rfl, hq, -⟩ := hspells.string
    have hne : q ≠ d := by
      intro heq
      rw [heq, isMark_of_isNamePart hd] at hq
      cases hq
    simp [Lexeme.joins, hne]
  | operator op =>
    obtain rfl := hl
    -- Only comparison operators join anything, and that is no part of a name.
    have hless : d ≠ '>' := ne_of_isNamePart hd (by decide)
    have hequal : d ≠ '=' := ne_of_isNamePart hd (by decide)
    cases op with
    | arithmetic op => rfl
    | comparison op => cases op <;> simp [Lexeme.joins, hless, hequal]
  | leftParen =>
    obtain rfl := hl
    rfl
  | rightParen =>
    obtain rfl := hl
    rfl
  | comma =>
    obtain rfl := hl
    rfl

theorem Lexeme.Apart.moves {l m : Lexeme} {spelling rest out : List Char}
    {previous : Option Char} (hapart : l.Apart rest) (hspells : l.Spells spelling)
    (hl : l.MovesTo rows columns m) (h : Moves rows columns (piecesFrom previous rest) out) :
    m.Apart out := by
  -- What follows starts as before, or a reference has moved and another name starts it.
  rcases h.head_eq_or_isNameStart with hhead | ⟨c, d, hc, hd, hcstart, hdstart⟩
  · intro c hc
    rw [hhead] at hc
    exact hl.joins_eq_false (hapart c hc)
  · intro e he
    rw [hd] at he
    cases he
    exact hl.joins_of_isNamePart hspells (isNamePart_of_start hcstart)
      (isNamePart_of_start hdstart) (hapart c hc)

end Spreadsheet
