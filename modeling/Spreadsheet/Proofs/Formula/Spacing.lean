import Spreadsheet.Proofs.Formula.Moving

/-!
# Lexemes with white space between them

A row of lexemes is written down one after the other, with any white space before, between and behind
them. It is read again as it was, if each lexeme stands apart from the spelling of the next one.
-/

namespace Spreadsheet

open Text Scanned Grammar

inductive Spaced : List Char → List Lexeme → Prop
  | nil : Spaced [] []
  | space {c : Char} {cs : List Char} {ls : List Lexeme} :
      isSpace c = true → Spaced cs ls → Spaced (c :: cs) ls
  | lexeme {l : Lexeme} {cs : List Char} {ls : List Lexeme} :
      Spaced cs ls → Spaced (l.text.toList ++ cs) (l :: ls)

namespace Spaced

/-- What a text starts with is white space or the spelling of the first lexeme. -/
theorem head {cs : List Char} {ls : List Lexeme} (h : Spaced cs ls)
    (hne : ∀ l ∈ ls, l.text.toList ≠ []) :
    ∀ c ∈ cs.head?, isSpace c = true ∨ ∃ l ∈ ls.head?, c ∈ l.text.toList.head? := by
  cases h with
  | nil => nofun
  | space hspace _ =>
    rintro c ⟨⟩
    exact .inl hspace
  | @lexeme l cs ls _ =>
    intro c hc
    have hl := hne l List.mem_cons_self
    rw [List.head?_append_of_ne_nil _ hl] at hc
    exact .inr ⟨l, rfl, hc⟩

theorem cut {cs : List Char} {ls : List Lexeme} (h : Spaced cs ls)
    (hspells : ∀ l ∈ ls, l.Spells l.text.toList)
    (hchain : ls.IsChain fun l m => l.Apart m.text.toList) : Cut cs ls := by
  -- A lexeme is apart from white space, and from the next lexeme by the chain.
  induction h with
  | nil => exact .nil
  | space hspace _ ih => exact .space hspace (ih hspells hchain)
  | @lexeme l cs ls hrest ih =>
    obtain ⟨hl, hls⟩ := List.forall_mem_cons.mp hspells
    refine .lexeme hl ?_ (ih hls hchain.of_cons)
    intro c hc
    rcases hrest.head (fun m hm => (hls m hm).ne_nil) c hc with hspace | ⟨m, hm, hc⟩
    · exact joins_of_isSpace hl hspace
    · obtain ⟨more, rfl⟩ := List.head?_eq_some_iff.mp hm
      exact (List.isChain_cons_cons.mp hchain).1 c hc

end Spaced

namespace Scanned

/-- Every lexeme that is no operand is written as one of the symbols. -/
theorem mem_symbols_of_isOperand {m : Lexeme} (h : m.isOperand = false) :
    (m.text.toList, m) ∈ symbols := by
  cases m with
  | operator op =>
    cases op with
    | arithmetic op => cases op <;> decide
    | comparison op => cases op <;> decide
  | leftParen => decide
  | rightParen => decide
  | comma => decide
  | _ => cases h

/-- No symbol has a point, and a parenthesis opens in one of them only. -/
theorem ne_point_of_symbol {spelling : List Char} {l : Lexeme} (h : (spelling, l) ∈ symbols) :
    ∀ c ∈ spelling, c ≠ '.' ∧ (c = '(' → l = .leftParen) := by
  have hall : ∀ entry ∈ symbols,
      entry.1.all (fun c => decide (c ≠ '.' ∧ (c = '(' → entry.2 = .leftParen))) = true := by
    decide
  exact fun c hc => of_decide_eq_true (List.all_eq_true.mp (hall _ h) c hc)

end Scanned

/-! ## Lexemes that start no longer one -/

structure Lexeme.Simple (l : Lexeme) : Prop where
  spells : l.Spells l.text.toList
  ne_comparison : ∀ op, l ≠ .operator (.comparison op)

namespace Lexeme

/-- A lexeme that starts no longer one stands apart from what may follow it in a formula. -/
theorem Simple.apart {l m : Lexeme} (hl : l.Simple) (h : Follows l m) : l.Apart m.text.toList := by
  intro c hc
  cases hoperand : l.isOperand with
  | false =>
    cases l with
    | operator op =>
      cases op with
      | arithmetic op => rfl
      | comparison op => exact absurd rfl (hl.ne_comparison op)
    | leftParen => rfl
    | rightParen => rfl
    | comma => rfl
    | _ => cases hoperand
  | true =>
    obtain ⟨hm, hparen⟩ := h hoperand
    have hsymbol := mem_symbols_of_isOperand hm
    have hmem := List.mem_of_mem_head? hc
    obtain ⟨-, hpart, hmark⟩ := isSpace_of_symbol hsymbol c hmem
    obtain ⟨hpoint, hopens⟩ := ne_point_of_symbol hsymbol c hmem
    -- A parenthesis can only be what `m` is, and then `h` says that it makes no call.
    have hcall : c = '(' → l.joins '(' = false := fun heq => hparen (hopens heq)
    cases l with
    | number s =>
      have hne : c ≠ '(' := fun heq => by simpa [Lexeme.joins] using hcall heq
      simp [Lexeme.joins, hpart, hpoint, hne]
    | boolean value =>
      have hne : c ≠ '(' := fun heq => by simpa [Lexeme.joins] using hcall heq
      simp [Lexeme.joins, hpart, hne]
    | identifier name =>
      by_cases heq : c = '('
      · subst heq
        exact hcall rfl
      · simp [Lexeme.joins, hpart, heq]
    | string s =>
      obtain ⟨-, q, more, hspelling, hq, -⟩ := hl.spells.string
      have hne : q ≠ c := by
        rintro rfl
        rw [hq] at hmark
        cases hmark
      have hhead : s.toList.head? = some q := congrArg List.head? hspelling
      simp [Lexeme.joins, hhead, hne]
    | _ => cases hoperand

theorem simple_arithmetic (op : Arithmetic) : (Lexeme.operator (.arithmetic op)).Simple := by
  cases op with
  | add => exact ⟨⟨'+', [], rfl, rfl⟩, nofun⟩
  | subtract => exact ⟨⟨'-', [], rfl, rfl⟩, nofun⟩
  | multiply => exact ⟨⟨'*', [], rfl, rfl⟩, nofun⟩
  | divide => exact ⟨⟨'/', [], rfl, rfl⟩, nofun⟩

theorem simple_leftParen : Lexeme.leftParen.Simple :=
  ⟨⟨'(', [], rfl, rfl⟩, nofun⟩

theorem simple_rightParen : Lexeme.rightParen.Simple :=
  ⟨⟨')', [], rfl, rfl⟩, nofun⟩

theorem simple_digits {digits : List Char} (hne : digits ≠ [])
    (h : ∀ c ∈ digits, isDecimal c = true) : (Lexeme.number (String.ofList digits)).Simple := by
  refine ⟨?_, nofun⟩
  have hdigit : ∀ c ∈ digits, isDigit c = true := fun c hc => isDigit_of_isDecimal (h c hc)
  have hmantissa : Scanned.takeMantissa digits = (digits, []) := by
    unfold Scanned.takeMantissa
    rw [List.takeWhile_eq_self_iff.mpr hdigit, List.dropWhile_eq_nil_iff.mpr hdigit]
  obtain ⟨c, hc⟩ := List.exists_mem_of_ne_nil digits hne
  have hany : digits.any isDigit = true := List.any_eq_true.mpr ⟨c, hc, hdigit c hc⟩
  rw [show (Lexeme.number (String.ofList digits)).text.toList = digits from String.toList_ofList]
  apply spells_of_number
  rw [Scanned.number_eq_ok_iff, hmantissa]
  exact ⟨[], nofun, hany, rfl, nofun, (List.append_nil digits).symm, rfl⟩

theorem simple_reference {r : Reference} (h : r.WellFormed) :
    (Lexeme.identifier (String.ofList r.spelling)).Simple := by
  refine ⟨?_, nofun⟩
  rw [show (Lexeme.identifier (String.ofList r.spelling)).text.toList = r.spelling
    from String.toList_ofList]
  obtain ⟨c, hmem, hc⟩ := h.exists_decimal
  rw [← nameLexeme_of_isDecimal hmem hc]
  obtain ⟨d, ds, hspelling, hd⟩ := Reference.head?_spelling h
  have hparts : ∀ e ∈ d :: ds, isNamePart e = true := by
    rw [← hspelling]
    exact fun e he => Reference.isNamePart_of_mem_spelling h he
  rw [hspelling]
  exact spells_name (isNameStart_of_start hd) (isDigit_of_start hd) hparts

end Lexeme

theorem Spaced.cut_of_simple {cs : List Char} {ls : List Lexeme} (h : Spaced cs ls)
    (hsimple : ∀ l ∈ ls, l.Simple) (hchain : ls.IsChain Follows) : Cut cs ls := by
  refine h.cut (fun l hl => (hsimple l hl).spells) ?_
  exact hchain.imp_of_mem_imp fun l m hl _ hfollows => (hsimple l hl).apart hfollows

end Spreadsheet
