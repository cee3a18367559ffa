import Spreadsheet.Proofs.Formula.Neighbours

/-!
# Formulas cut into lexemes

A formula is a text of white space and spellings of lexemes. Each spelling stands apart from what
follows it, so it can be replaced by another spelling without a change in how the rest is cut.
-/

namespace Spreadsheet

open Text Scanned Grammar

/-! ## Scanning -/

inductive Lexed : List Char → List Lexeme → Prop
  | nil : Lexed [] []
  | space {c : Char} {cs : List Char} {ls : List Lexeme} :
      isSpace c = true → Lexed cs ls → Lexed (c :: cs) ls
  | lexeme {c : Char} {cs : List Char} {s : Scanned} {ls : List Lexeme} :
      ofFront c cs = .ok s → Lexed s.rest ls → Lexed (c :: cs) (s.lexeme :: ls)

theorem Lexed.front {c : Char} {cs : List Char} {ls : List Lexeme} (h : Lexed (c :: cs) ls) :
    (isSpace c = true ∧ Lexed cs ls) ∨
      ∃ s ls', ls = s.lexeme :: ls' ∧ ofFront c cs = .ok s ∧ Lexed s.rest ls' := by
  cases h with
  | space hspace hrest => exact Or.inl ⟨hspace, hrest⟩
  | lexeme hs hrest => exact Or.inr ⟨_, _, rfl, hs, hrest⟩

namespace Scanned

theorem isSpace_of_symbol {spelling : List Char} {l : Lexeme} (h : (spelling, l) ∈ symbols) :
    ∀ c ∈ spelling, isSpace c = false ∧ isNamePart c = false ∧ isMark c = false := by
  have hall : ∀ entry ∈ symbols,
      entry.1.all (fun c => !isSpace c && !isNamePart c && !isMark c) = true := by
    decide
  intro c hc
  have hchar := List.all_eq_true.mp (hall _ h) c hc
  simp only [Bool.and_eq_true, Bool.not_eq_true'] at hchar
  exact ⟨hchar.1.1, hchar.1.2, hchar.2⟩

/-- An operator or a parenthesis starts with no white space, no name and no mark of a quoted text. -/
theorem isSpace_of_symbol? {c : Char} {cs : List Char} {s : Scanned}
    (h : symbol? (c :: cs) = some s) :
    isSpace c = false ∧ isNamePart c = false ∧ isMark c = false := by
  obtain ⟨ds, hspelling⟩ := exists_cons_of_append (symbol?_append h) (symbol?_ne_nil h)
  exact isSpace_of_symbol (mem_symbols_of_symbol? h) c (by simp [hspelling])

theorem isSpace_of_ofFront {c : Char} {cs : List Char} {s : Scanned} (h : ofFront c cs = .ok s) :
    isSpace c = false := by
  rcases ofFront_cases h with ⟨hmark, -⟩ | ⟨-, hdigit, -⟩ | ⟨-, -, hname, -⟩ | ⟨-, -, -, hs⟩
  · exact isSpace_of_isMark hmark
  · rcases Bool.or_eq_true_iff.mp hdigit with hdigit | hpoint
    · exact isSpace_of_isNamePart (isNamePart_of_isDigit hdigit)
    · rw [of_decide_eq_true hpoint]
      decide
  · exact isSpace_of_isNamePart (isNamePart_of_isNameStart hname)
  · exact (isSpace_of_symbol? hs).1

theorem length_rest_lt {c : Char} {cs : List Char} {s : Scanned} (h : ofFront c cs = .ok s) :
    s.rest.length < (c :: cs).length := by
  have happend := congrArg List.length (ofFront_append h)
  have hpos := List.length_pos_iff.mpr (ofFront_spells h).ne_nil
  rw [List.length_append] at happend
  omega

end Scanned

namespace Token

theorem lexed_of_scanFrom {n position : Nat} {cs : List Char} {ts : List Token}
    (hlength : cs.length ≤ n) (h : scanFrom n position cs = .ok ts) : Lexed cs (lexemes ts) := by
  -- Each lexeme takes a character at least, so the bound lasts for the whole text.
  induction n generalizing position cs ts with
  | zero =>
    obtain rfl := List.eq_nil_of_length_eq_zero (Nat.le_zero.mp hlength)
    cases h
    exact .nil
  | succ n ih =>
    cases cs with
    | nil =>
      cases h
      exact .nil
    | cons c cs =>
      unfold scanFrom at h
      split at h
      · rename_i hspace
        exact .space hspace (ih (Nat.le_of_succ_le_succ hlength) h)
      · split at h
        · cases h
        · rename_i s hs
          have hlt := length_rest_lt hs
          cases hrest : scanFrom n (position + s.spelling.length) s.rest with
          | error e =>
            rw [hrest] at h
            cases h
          | ok us =>
            rw [hrest] at h
            cases h
            exact .lexeme hs (ih (by omega) hrest)

theorem lexed_of_scan {text : String} {ts : List Token} (h : scan text = .ok ts) :
    Lexed (trim text.toList) (lexemes ts) :=
  lexed_of_scanFrom (Nat.le_refl _) h

theorem scanFrom_of_lexed {n : Nat} {cs : List Char} {ls : List Lexeme}
    (hlength : cs.length ≤ n) (h : Lexed cs ls) (position : Nat) :
    ∃ ts, scanFrom n position cs = .ok ts ∧ lexemes ts = ls := by
  -- The bound shrinks by one at each step, while a lexeme takes off one character at least.
  induction h generalizing n position with
  | nil => exact ⟨[], by cases n <;> rfl, rfl⟩
  | @space c cs ls hspace _ ih =>
    cases n with
    | zero => cases hlength
    | succ n =>
      obtain ⟨ts, hts, hls⟩ := ih (Nat.le_of_succ_le_succ hlength) (position + 1)
      exact ⟨ts, by simp only [scanFrom, hspace, if_true, hts], hls⟩
  | @lexeme c cs s ls hs _ ih =>
    cases n with
    | zero => cases hlength
    | succ n =>
      have hlt := length_rest_lt hs
      obtain ⟨ts, hts, hls⟩ := ih (n := n) (by omega) (position + s.spelling.length)
      refine ⟨⟨s.lexeme, position⟩ :: ts, ?_, ?_⟩
      · simp only [scanFrom, isSpace_of_ofFront hs, Bool.false_eq_true, if_false, hs, hts]
        rfl
      · rw [lexemes_cons, hls]

end Token

/-! ## Lexemes that stand apart -/

/-- A text cut into white space and spellings of lexemes, each of them apart from what follows. -/
inductive Cut : List Char → List Lexeme → Prop
  | nil : Cut [] []
  | space {c : Char} {cs : List Char} {ls : List Lexeme} :
      isSpace c = true → Cut cs ls → Cut (c :: cs) ls
  | lexeme {l : Lexeme} {spelling cs : List Char} {ls : List Lexeme} :
      l.Spells spelling → l.Apart cs → Cut cs ls → Cut (spelling ++ cs) (l :: ls)

theorem Cut.lexed {cs : List Char} {ls : List Lexeme} (h : Cut cs ls) : Lexed cs ls := by
  -- What stands apart is read first, so the cut is what the lexer does.
  induction h with
  | nil => exact .nil
  | space hspace _ ih => exact .space hspace ih
  | lexeme hspells hapart _ ih =>
    obtain ⟨c, spelling, rfl, hfront⟩ := hspells
    exact Lexed.lexeme (s := ⟨_, _, _⟩) (ofFront_append_of_apart hfront hapart) ih

/-- Every lexeme of a text that is cut is spelled somewhere in it. -/
theorem Cut.exists_spells {cs : List Char} {ls : List Lexeme} (h : Cut cs ls) :
    ∀ l ∈ ls, ∃ spelling, l.Spells spelling ∧ spelling <:+: cs := by
  -- A spelling lies at the front of what is still to cut, or further behind.
  induction h with
  | nil => nofun
  | space _ _ ih =>
    intro l hl
    obtain ⟨spelling, hspells, hwithin⟩ := ih l hl
    exact ⟨spelling, hspells, hwithin.trans (List.suffix_cons _ _).isInfix⟩
  | @lexeme _ spelling cs _ hspells _ _ ih =>
    refine List.forall_mem_cons.mpr ⟨⟨spelling, hspells, (List.prefix_append _ _).isInfix⟩, ?_⟩
    intro l hl
    obtain ⟨spelling', hspells', hwithin⟩ := ih l hl
    exact ⟨spelling', hspells', hwithin.trans (List.suffix_append spelling cs).isInfix⟩

/-- A lexeme that stands apart is the first that is read. -/
theorem Lexed.of_spells {l : Lexeme} {spelling cs : List Char} {ls : List Lexeme}
    (hspells : l.Spells spelling) (hapart : l.Apart cs) (h : Lexed (spelling ++ cs) ls) :
    ∃ ls', ls = l :: ls' ∧ Lexed cs ls' := by
  obtain ⟨c, spelling, rfl, hfront⟩ := hspells
  rw [List.cons_append] at h
  rcases h.front with ⟨hspace, -⟩ | ⟨s, ls', rfl, hs, hrest⟩
  · rw [isSpace_of_ofFront hfront] at hspace
    cases hspace
  · rw [ofFront_append_of_apart hfront hapart] at hs
    cases hs
    exact ⟨ls', rfl, hrest⟩

namespace Scanned

/-- What is read from a character inside names that is no digit is an operand. -/
theorem isOperand_of_isNamePart {c : Char} {cs : List Char} {s : Scanned}
    (h : ofFront c cs = .ok s) (hpart : isNamePart c = true) : s.lexeme.isOperand = true := by
  rcases ofFront_cases h with ⟨hmark, -⟩ | ⟨-, -, hs⟩ | ⟨-, -, -, rfl⟩ | ⟨-, -, -, hs⟩
  · rw [isNamePart_of_isMark hmark] at hpart
    cases hpart
  · obtain ⟨-, -, -, -, -, -, hlexeme⟩ := number_eq_ok_iff.mp hs
    rw [hlexeme]
    rfl
  · exact isOperand_nameLexeme _
  · rw [(isSpace_of_symbol? hs).2.1] at hpart
    cases hpart

theorem ofFront_paren {cs : List Char} {s : Scanned} (h : ofFront '(' cs = .ok s) :
    s.lexeme = .leftParen := by
  have hparen : ofFront '(' cs = .ok ⟨.leftParen, ['('], cs⟩ := rfl
  rw [hparen] at h
  cases h
  rfl

/-- A string is apart from whatever stands behind it. -/
theorem apart_of_string {c : Char} {cs : List Char} {s : Scanned} (hmark : isMark c = true)
    (h : string (c :: cs) = .ok s) : s.lexeme.Apart s.rest := by
  obtain ⟨text, hclosing, hspelling, hlexeme⟩ := (string_eq_ok_iff hmark).mp h
  intro d hd
  have hquote := takeClosing?_rest hclosing d hd
  simp [hlexeme, hspelling, Lexeme.joins, Ne.symm hquote]

/-- A lexeme is apart from the text behind it, if this text starts with no operand where the lexeme
is one and with no parenthesis where the lexeme cannot be called. -/
theorem apart_of_ofFront {c : Char} {cs : List Char} {s : Scanned} (h : ofFront c cs = .ok s)
    (hpart : s.lexeme.isOperand = true → ∀ d ∈ s.rest.head?, isNamePart d = true → isDigit d = true)
    (hparen : s.lexeme.isOperand = true → ∀ d ∈ s.rest.head?, d = '(' →
      s.lexeme.joins '(' = false) : s.lexeme.Apart s.rest := by
  rcases ofFront_cases h with ⟨hmark, hs⟩ | ⟨-, -, hs⟩ | ⟨-, -, -, rfl⟩ | ⟨-, -, -, hs⟩
  · exact apart_of_string hmark hs
  · obtain ⟨-, -, -, -, -, -, hlexeme⟩ := number_eq_ok_iff.mp hs
    have hoperand : s.lexeme.isOperand = true := by rw [hlexeme]; rfl
    intro d hd
    obtain ⟨hdigit, hpoint⟩ := number_rest hs d hd
    -- No digit follows a number, so by `hpart` nothing follows that goes on with a name.
    have hnot : isNamePart d = false := eq_false_of_imp (hpart hoperand d hd) hdigit
    have hcall : d ≠ '(' := by
      intro heq
      subst heq
      have hjoins := hparen hoperand '(' hd rfl
      simp [hlexeme, Lexeme.joins] at hjoins
    simp [hlexeme, Lexeme.joins, hnot, hpoint, hcall]
  · intro d hd
    have hnot : isNamePart d = false := head_dropWhile (c :: cs) d hd
    by_cases hcall : d = '('
    · subst hcall
      exact hparen (isOperand_nameLexeme _) '(' hd rfl
    · show (nameLexeme _).joins d = false
      unfold nameLexeme
      split
      · simp [Lexeme.joins, hnot, hcall]
      · simp [Lexeme.joins, hnot, hcall]
  · exact symbol?_rest hs

end Scanned

/-- Lexemes that follow each other as in a formula stand apart. -/
theorem Lexed.cut {cs : List Char} {ls : List Lexeme} (h : Lexed cs ls)
    (hchain : ls.IsChain Follows) : Cut cs ls := by
  -- That each lexeme is apart from the next one needs the chain, which loses its head at each
  -- lexeme.
  induction h with
  | nil => exact .nil
  | space hspace _ ih => exact .space hspace (ih hchain)
  | @lexeme c cs s ls hs hrest ih =>
    have hcut := ih hchain.of_cons
    rw [← ofFront_append hs]
    refine .lexeme (ofFront_spells hs) (apart_of_ofFront hs ?_ ?_) hcut
    · -- What goes on with a name and is no white space would be read as another operand.
      intro hoperand d hd hpart
      obtain ⟨more, hmore⟩ := List.head?_eq_some_iff.mp hd
      rw [hmore] at hrest
      rcases hrest.front with ⟨hspace, -⟩ | ⟨s', ls', rfl, hnext, -⟩
      · rw [isSpace_of_isNamePart hpart] at hspace
        cases hspace
      · have hfollows := (List.isChain_cons_cons.mp hchain).1 hoperand
        rw [isOperand_of_isNamePart hnext hpart] at hfollows
        cases hfollows.1
    · -- A parenthesis behind an operand makes a call of it.
      intro hoperand d hd heq
      subst heq
      obtain ⟨more, hmore⟩ := List.head?_eq_some_iff.mp hd
      rw [hmore] at hrest
      rcases hrest.front with ⟨hspace, -⟩ | ⟨s', ls', rfl, hnext, -⟩
      · cases hspace
      · exact ((List.isChain_cons_cons.mp hchain).1 hoperand).2 (ofFront_paren hnext)

/-! ## White space at the ends -/

theorem joins_of_isSpace {l : Lexeme} {spelling : List Char} {c : Char} (h : l.Spells spelling)
    (hspace : isSpace c = true) : l.joins c = false := by
  obtain ⟨hpart, hmark, hsymbols⟩ := spaces_apart hspace
  simp only [List.mem_cons, List.not_mem_nil, not_or] at hsymbols
  cases l with
  | number _ => simp [Lexeme.joins, hpart, hsymbols]
  | identifier _ => simp [Lexeme.joins, hpart, hsymbols]
  | boolean _ => simp [Lexeme.joins, hpart, hsymbols]
  | operator op =>
    cases op with
    | arithmetic op => rfl
    | comparison op => cases op <;> simp [Lexeme.joins, hsymbols]
  | string text =>
    obtain ⟨rfl, q, more, rfl, hq, -⟩ := h.string
    have hne : q ≠ c := by
      intro heq
      subst heq
      rw [hq] at hmark
      cases hmark
    simp [Lexeme.joins, hne]
  | leftParen => rfl
  | rightParen => rfl
  | comma => rfl

/-- White space behind a text makes it go on with no lexeme in front of it. -/
theorem Lexeme.Apart.append_spaces {l : Lexeme} {spelling cs spaces : List Char}
    (h : l.Apart cs) (hspells : l.Spells spelling) (hspaces : ∀ c ∈ spaces, isSpace c = true) :
    l.Apart (cs ++ spaces) := by
  cases cs with
  | nil =>
    intro c hc
    exact joins_of_isSpace hspells (hspaces c (List.mem_of_mem_head? hc))
  | cons d cs => exact h

theorem Cut.append_spaces {cs spaces : List Char} {ls : List Lexeme} (h : Cut cs ls)
    (hspaces : ∀ c ∈ spaces, isSpace c = true) : Cut (cs ++ spaces) ls := by
  -- White space at the end joins no lexeme, so it only matters where the cut ends.
  induction h with
  | nil =>
    rw [List.nil_append]
    induction spaces with
    | nil => exact .nil
    | cons c spaces ih =>
      obtain ⟨hc, hrest⟩ := List.forall_mem_cons.mp hspaces
      exact .space hc (ih hrest)
  | space hspace _ ih => exact .space hspace ih
  | @lexeme l spelling cs ls hspells hapart _ ih =>
    rw [List.append_assoc]
    exact .lexeme hspells (hapart.append_spaces hspells hspaces) ih

namespace Scanned

theorem isSpace_of_mem_number {cs : List Char} {s : Scanned} (h : number cs = .ok s) :
    ∀ c ∈ s.spelling, isSpace c = false := by
  obtain ⟨exponent, -, -, hexponent, -, hspelling, -⟩ := number_eq_ok_iff.mp h
  have hdigit : ∀ c, isDigit c = true → isSpace c = false := fun c hc =>
    isSpace_of_isNamePart (isNamePart_of_isDigit hc)
  intro c hc
  rw [hspelling, List.mem_append] at hc
  rcases hc with hmantissa | hexp
  · rcases takeMantissa_chars cs c hmantissa with hc | rfl
    · exact hdigit c hc
    · rfl
  · rcases takeExponent_cases hexponent with rfl | ⟨e, sign, digits, he, rfl, hsign, -, hdigits⟩
    · cases hexp
    · rcases List.mem_cons.mp hexp with rfl | hexp
      · rcases he with rfl | rfl <;> rfl
      · rcases List.mem_append.mp hexp with hc | hc
        · rcases hsign c hc with rfl | rfl <;> rfl
        · exact hdigit c (hdigits c hc)

theorem takeClosing?_getLast {q : Char} {cs text rest : List Char}
    (h : takeClosing? q cs = some (text, rest)) : text.getLast? = some q := by
  fun_induction takeClosing? q cs generalizing text rest with
  | case1 => cases h
  | case2 =>
    cases h
    rfl
  | case3 c hc => cases h
  | case4 cs ih =>
    obtain ⟨⟨t, r⟩, ht, hpair⟩ := Option.map_eq_some_iff.mp h
    cases hpair
    simp [List.getLast?_cons, ih ht]
  | case5 d cs hd =>
    cases h
    rfl
  | case6 c d cs hc ih =>
    obtain ⟨⟨t, r⟩, ht, hpair⟩ := Option.map_eq_some_iff.mp h
    cases hpair
    simp [List.getLast?_cons, ih ht]

theorem isSpace_getLast {l : Lexeme} {spelling : List Char} (h : l.Spells spelling) :
    ∀ c ∈ spelling.getLast?, isSpace c = false := by
  intro c hc
  have hmem := List.mem_of_getLast? hc
  rcases h.cases with ⟨q, text, rfl, hq, hclosing, -⟩ | ⟨hs, -⟩ | ⟨_, _, -, -, -, hparts, -⟩ | hs
  · have hlast := takeClosing?_getLast hclosing
    rw [List.getLast?_cons, hlast] at hc
    cases hc
    exact isSpace_of_isMark hq
  · exact isSpace_of_mem_number hs c hmem
  · exact isSpace_of_isNamePart (hparts c hmem)
  · exact (isSpace_of_symbol hs c hmem).1

end Scanned

theorem Cut.of_append_spaces {cs spaces : List Char} {ls : List Lexeme} (h : Cut (cs ++ spaces) ls)
    (hspaces : ∀ c ∈ spaces, isSpace c = true) : Cut cs ls := by
  generalize hall : cs ++ spaces = all at h
  -- The cut of the whole is followed up to where the white space begins.
  induction h generalizing cs spaces with
  | nil =>
    obtain ⟨rfl, -⟩ := List.append_eq_nil_iff.mp hall
    exact .nil
  | @space c all ls hspace hrest ih =>
    cases cs with
    | nil =>
      rw [List.nil_append] at hall
      subst hall
      exact @ih [] all (List.forall_mem_cons.mp hspaces).2 rfl
    | cons d cs =>
      obtain ⟨rfl, rfl⟩ := List.cons.inj hall
      exact .space hspace (ih hspaces rfl)
  | @lexeme l spelling all ls hspells hapart hrest ih =>
    rcases List.append_eq_append_iff.mp hall with ⟨more, rfl, rfl⟩ | ⟨more, rfl, rfl⟩
    · -- Since it does not end with white space, the spelling reaches to the end of `cs` at most.
      cases more with
      | nil =>
        rw [List.append_nil] at hspells
        have hcut := @ih [] all hspaces rfl
        have hself := Cut.lexeme hspells (fun c hc => by cases hc) hcut
        rw [List.append_nil] at hself
        exact hself
      | cons c more =>
        have hlast := isSpace_getLast hspells ((c :: more).getLast (List.cons_ne_nil c more))
          (by rw [List.getLast?_append_of_ne_nil _ (List.cons_ne_nil c more)]
              exact List.getLast?_eq_some_getLast _)
        have hspace := hspaces _ (List.mem_append_left all (List.getLast_mem (List.cons_ne_nil c more)))
        rw [hlast] at hspace
        cases hspace
    · -- The spelling lies within `cs`, and so does what it is apart from.
      refine .lexeme hspells ?_ (ih hspaces rfl)
      cases more with
      | nil => nofun
      | cons c more => exact hapart

theorem Cut.of_spaces_append {cs spaces : List Char} {ls : List Lexeme}
    (h : Cut (spaces ++ cs) ls) (hspaces : ∀ c ∈ spaces, isSpace c = true) : Cut cs ls := by
  induction spaces with
  | nil => exact h
  | cons c spaces ih =>
    obtain ⟨hc, hrest⟩ := List.forall_mem_cons.mp hspaces
    refine ih ?_ hrest
    generalize hall : c :: spaces ++ cs = all at h
    cases h with
    | nil => cases hall
    | space _ hcut =>
      obtain ⟨-, rfl⟩ := List.cons.inj hall
      exact hcut
    | lexeme hspells _ _ =>
      -- No lexeme starts with white space.
      obtain ⟨d, ds, rfl, hfront⟩ := hspells
      obtain ⟨rfl, -⟩ := List.cons.inj hall
      rw [isSpace_of_ofFront hfront] at hc
      cases hc

theorem Cut.spaces_append {cs spaces : List Char} {ls : List Lexeme} (h : Cut cs ls)
    (hspaces : ∀ c ∈ spaces, isSpace c = true) : Cut (spaces ++ cs) ls := by
  induction spaces with
  | nil => exact h
  | cons c spaces ih =>
    obtain ⟨hc, hrest⟩ := List.forall_mem_cons.mp hspaces
    exact .space hc (ih hrest)

theorem trim_eq_takeWhile (cs : List Char) :
    ∃ back, cs = cs.takeWhile isSpace ++ (trim cs ++ back) ∧ ∀ c ∈ back, isSpace c = true := by
  refine ⟨((cs.dropWhile isSpace).reverse.takeWhile isSpace).reverse, ?_, ?_⟩
  · have hback := congrArg List.reverse
      (List.takeWhile_append_dropWhile (p := isSpace) (l := (cs.dropWhile isSpace).reverse))
    rw [List.reverse_append, List.reverse_reverse] at hback
    have hfront := List.takeWhile_append_dropWhile (p := isSpace) (l := cs)
    unfold trim trimEnd
    rw [hback, hfront]
  · intro c hc
    exact List.mem_takeWhile_imp (List.mem_reverse.mp hc)

theorem trim_eq (cs : List Char) : ∃ front back, cs = front ++ (trim cs ++ back) ∧
    (∀ c ∈ front, isSpace c = true) ∧ ∀ c ∈ back, isSpace c = true := by
  obtain ⟨back, hcs, hback⟩ := trim_eq_takeWhile cs
  exact ⟨cs.takeWhile isSpace, back, hcs, fun c => List.mem_takeWhile_imp, hback⟩

theorem trim_eq_self {cs : List Char} (hfirst : ∀ c ∈ cs.head?, isSpace c = false)
    (hlast : ∀ c ∈ cs.getLast?, isSpace c = false) : trim cs = cs := by
  have hfront : cs.dropWhile isSpace = cs := by
    cases cs with
    | nil => rfl
    | cons c cs => exact List.dropWhile_cons_of_neg (by rw [hfirst c rfl]; exact Bool.false_ne_true)
  have hback : cs.reverse.dropWhile isSpace = cs.reverse := by
    rw [← List.head?_reverse] at hlast
    cases hcs : cs.reverse with
    | nil => rfl
    | cons c ds =>
      rw [hcs] at hlast
      exact List.dropWhile_cons_of_neg (by rw [hlast c rfl]; exact Bool.false_ne_true)
  unfold trim trimEnd
  rw [hfront, hback, List.reverse_reverse]

/-- A text is cut like the text without white space at its ends. -/
theorem cut_trim_iff {cs : List Char} {ls : List Lexeme} : Cut (trim cs) ls ↔ Cut cs ls := by
  obtain ⟨front, back, hcs, hfront, hback⟩ := trim_eq cs
  constructor
  · intro h
    rw [hcs]
    exact (h.append_spaces hback).spaces_append hfront
  · intro h
    rw [hcs] at h
    exact (h.of_spaces_append hfront).of_append_spaces hback

/-! ## Formulas -/

namespace Formula

theorem parse_eq_ofTokens {text : String} {ts : List Token} (h : Token.scan text = .ok ts) :
    parse text = ofTokens ts := by
  unfold parse
  rw [h]

theorem parse_eq_ok {text : String} {tree : Content} (h : parse text = .ok tree) :
    ∃ ts, Token.scan text = .ok ts ∧ ofTokens ts = .ok tree := by
  unfold parse at h
  split at h
  · rename_i ts hts
    exact ⟨ts, hts, h⟩
  · cases h

/-- The text of a formula is cut into the lexemes of its tokens. -/
theorem cut_of_parse {text : String} {tree : Content} (h : parse text = .ok tree) :
    ∃ ts, Token.scan text = .ok ts ∧ ofTokens ts = .ok tree ∧ Cut text.toList (lexemes ts) := by
  obtain ⟨ts, hts, htree⟩ := parse_eq_ok h
  have hcut := (Token.lexed_of_scan hts).cut (isChain_of_ofTokens htree)
  exact ⟨ts, hts, htree, cut_trim_iff.mp hcut⟩

end Formula

theorem Token.scan_of_cut {text : String} {ls : List Lexeme} (h : Cut text.toList ls) :
    ∃ ts, Token.scan text = .ok ts ∧ lexemes ts = ls :=
  scanFrom_of_lexed (Nat.le_refl _) (cut_trim_iff.mpr h).lexed 0

/-- A lexeme alone is a token at the start of the text. -/
theorem Token.scan_of_spells {l : Lexeme} {text : String} (h : l.Spells text.toList) :
    Token.scan text = .ok [⟨l, 0⟩] := by
  have hlast := isSpace_getLast h
  obtain ⟨c, cs, hcs, hfront⟩ := h
  rw [hcs] at hlast hfront
  have hspace := isSpace_of_ofFront hfront
  unfold Token.scan
  rw [hcs, trim_eq_self (by rintro d ⟨⟩; exact hspace) hlast]
  show Token.scanFrom (cs.length + 1) 0 (c :: cs) = _
  unfold Token.scanFrom
  rw [if_neg (by rw [hspace]; exact Bool.false_ne_true), hfront]
  show (Token.scanFrom cs.length _ []).map _ = _
  cases cs.length <;> rfl

end Spreadsheet
