import Spreadsheet.Proofs.Text.Classes

/-!
# Lexemes by themselves

What a lexeme is read from depends on the characters that spell it and on the one behind them alone.
A spelling gives its lexeme when nothing follows it, and it gives the same one in front of every text
whose first character does not join it.
-/

namespace Spreadsheet

open Text

namespace Scanned

/-! ## Numbers -/

theorem takeMantissa_append_of_head (cs : List Char) {rest : List Char}
    (h : ∀ c ∈ rest.head?, isDigit c = false ∧ c ≠ '.') :
    takeMantissa (cs ++ rest) = ((takeMantissa cs).1, (takeMantissa cs).2 ++ rest) := by
  have hdigit : ∀ c ∈ rest.head?, isDigit c = false := fun c hc => (h c hc).1
  unfold takeMantissa
  rw [takeWhile_append_of_head cs hdigit, dropWhile_append_of_head cs hdigit]
  -- The digits before the point may be all there is. Then no point may follow in what is appended.
  cases hrest : cs.dropWhile isDigit with
  | nil =>
    rw [List.nil_append]
    split
    · rename_i more
      exact absurd rfl (h '.' rfl).2
    · rfl
  | cons d ds =>
    by_cases hd : d = '.'
    · subst hd
      simp only [List.cons_append, takeWhile_append_of_head ds hdigit,
        dropWhile_append_of_head ds hdigit]
    · simp only [List.cons_append]
      split
      · rename_i heq
        exact absurd (List.cons.inj heq).1 hd
      · split
        · rename_i heq
          exact absurd (List.cons.inj heq).1 hd
        · rfl

theorem takeMantissa_self (cs : List Char) :
    takeMantissa (takeMantissa cs).1 = ((takeMantissa cs).1, []) := by
  unfold takeMantissa
  cases hrest : cs.dropWhile isDigit with
  | nil => simp [takeWhile_takeWhile_self, dropWhile_takeWhile_self]
  | cons d ds =>
    by_cases hd : d = '.'
    · -- The point ends the first row of digits again.
      subst hd
      have hpoint : ∀ c ∈ ('.' :: ds.takeWhile isDigit).head?, isDigit c = false := by
        rintro c ⟨⟩
        decide
      simp only [takeWhile_append_of_head _ hpoint, dropWhile_append_of_head _ hpoint,
        takeWhile_takeWhile_self, dropWhile_takeWhile_self, List.nil_append]
    · have hself : (cs.takeWhile isDigit).dropWhile isDigit = [] := dropWhile_takeWhile_self cs
      split
      · rename_i heq
        exact absurd (List.cons.inj heq).1 hd
      · simp only [takeWhile_takeWhile_self, hself]

theorem takeExponent_append_of_head {cs spelling rest more : List Char}
    (h : takeExponent cs = .ok (spelling, rest))
    (hmore : ∀ c ∈ more.head?, isDigit c = false ∧ c ≠ 'e' ∧ c ≠ 'E') :
    takeExponent (cs ++ more) = .ok (spelling, rest ++ more) := by
  have hdigit : ∀ c ∈ more.head?, isDigit c = false := fun c hc => (hmore c hc).1
  unfold takeExponent at h
  split at h
  · cases h
    cases more with
    | nil => rfl
    | cons c more =>
      obtain ⟨-, he, hE⟩ := hmore c rfl
      simp [takeExponent, he, hE]
  · rename_i c cs
    split at h
    · rename_i hc
      dsimp only at h
      split at h
      · cases h
      · rename_i hdigits
        cases h
        -- Behind the letter there is a sign or a digit, so the sign is read as before.
        have hsign : takeSign (cs ++ more) = ((takeSign cs).1, (takeSign cs).2 ++ more) := by
          cases cs with
          | nil => exact absurd rfl hdigits
          | cons d ds =>
            simp only [List.cons_append, takeSign]
            split <;> rfl
        simp only [List.cons_append, takeExponent, hc, if_true, hsign,
          takeWhile_append_of_head _ hdigit, dropWhile_append_of_head _ hdigit, hdigits]
        rfl
    · rename_i hc
      cases h
      simp only [List.cons_append, takeExponent, hc, Bool.false_eq_true, if_false]

/-- An exponent is the exponent of itself, and it is empty or starts with its letter. -/
theorem takeExponent_self {cs spelling rest : List Char}
    (h : takeExponent cs = .ok (spelling, rest)) :
    takeExponent spelling = .ok (spelling, []) ∧ ∀ c ∈ spelling.head?, c = 'e' ∨ c = 'E' := by
  unfold takeExponent at h
  split at h
  · cases h
    exact ⟨rfl, by rintro c ⟨⟩⟩
  · rename_i c cs
    split at h
    · rename_i hc
      dsimp only at h
      split at h
      · cases h
      · rename_i hdigits
        cases h
        -- The digits that are kept start where the digits started before.
        have hsign : takeSign ((takeSign cs).1 ++ (takeSign cs).2.takeWhile isDigit) =
            ((takeSign cs).1, (takeSign cs).2.takeWhile isDigit) := by
          cases cs with
          | nil => rfl
          | cons d ds =>
            unfold takeSign at hdigits ⊢
            by_cases hd : (d = '+' || d = '-') = true
            · simp only [hd, if_true, List.cons_append, List.nil_append]
            · simp only [hd, Bool.false_eq_true, if_false, List.nil_append] at hdigits ⊢
              by_cases hdigit : isDigit d = true
              · simp only [List.takeWhile_cons_of_pos hdigit, hd, Bool.false_eq_true, if_false]
              · -- There would be no exponent without digits.
                rw [List.takeWhile_cons_of_neg hdigit] at hdigits
                exact absurd rfl hdigits
        refine ⟨?_, ?_⟩
        · simp only [List.cons_append, takeExponent, hc, if_true, hsign, takeWhile_takeWhile_self,
            dropWhile_takeWhile_self, hdigits]
          rfl
        · rintro d ⟨⟩
          simpa using hc
    · cases h
      exact ⟨rfl, by rintro c ⟨⟩⟩

theorem takeExponent_rest {cs spelling rest : List Char}
    (h : takeExponent cs = .ok (spelling, rest)) (hcs : ∀ c ∈ cs.head?, isDigit c = false) :
    ∀ c ∈ rest.head?, isDigit c = false := by
  unfold takeExponent at h
  split at h
  · cases h
    exact hcs
  · split at h
    · dsimp only at h
      split at h
      · cases h
      · cases h
        exact head_dropWhile _
    · cases h
      exact hcs

theorem takeMantissa_rest (cs : List Char) :
    ∀ c ∈ (takeMantissa cs).2.head?, isDigit c = false := by
  unfold takeMantissa
  split
  · exact head_dropWhile _
  · exact head_dropWhile cs

theorem takeMantissa_chars (cs : List Char) :
    ∀ c ∈ (takeMantissa cs).1, isDigit c = true ∨ c = '.' := by
  intro c hc
  unfold takeMantissa at hc
  split at hc
  · rcases List.mem_append.mp hc with hwhole | hrest
    · exact Or.inl (List.mem_takeWhile_imp hwhole)
    · rcases List.mem_cons.mp hrest with rfl | hfraction
      · exact Or.inr rfl
      · exact Or.inl (List.mem_takeWhile_imp hfraction)
  · exact Or.inl (List.mem_takeWhile_imp hc)

theorem takeSign_chars (cs : List Char) : ∀ c ∈ (takeSign cs).1, c = '+' ∨ c = '-' := by
  intro c hc
  unfold takeSign at hc
  split at hc
  · cases hc
  · split at hc
    · rename_i hsign
      rw [List.mem_singleton.mp hc]
      simpa using hsign
    · cases hc

/-- An exponent is empty, or its letter, a sign or none, and digits. -/
theorem takeExponent_cases {cs spelling rest : List Char}
    (h : takeExponent cs = .ok (spelling, rest)) :
    spelling = [] ∨ ∃ c sign digits, (c = 'e' ∨ c = 'E') ∧ spelling = c :: (sign ++ digits) ∧
      (∀ d ∈ sign, d = '+' ∨ d = '-') ∧ digits ≠ [] ∧ ∀ d ∈ digits, isDigit d = true := by
  unfold takeExponent at h
  split at h
  · cases h
    exact Or.inl rfl
  · rename_i c cs
    split at h
    · rename_i hc
      dsimp only at h
      split at h
      · cases h
      · rename_i hdigits
        cases h
        refine Or.inr ⟨c, (takeSign cs).1, (takeSign cs).2.takeWhile isDigit, by simpa using hc, rfl,
          takeSign_chars cs, ?_, fun d => List.mem_takeWhile_imp⟩
        -- The letter without digits is an error and not an empty exponent.
        intro hnil
        exact hdigits (by rw [hnil]; rfl)
    · cases h
      exact Or.inl rfl

theorem checkNoPoint_eq_ok_iff {cs : List Char} :
    checkNoPoint cs = .ok () ↔ cs.head? ≠ some '.' := by
  unfold checkNoPoint
  split
  · rename_i h
    simp [h]
  · rename_i h
    simp [h]

/-- A number is a mantissa with a digit and an exponent, with no point behind either of them. -/
theorem number_eq_ok_iff {cs : List Char} {s : Scanned} :
    number cs = .ok s ↔ ∃ exponent, (takeMantissa cs).2.head? ≠ some '.' ∧
      (takeMantissa cs).1.any isDigit = true ∧
      takeExponent (takeMantissa cs).2 = .ok (exponent, s.rest) ∧ s.rest.head? ≠ some '.' ∧
      s.spelling = (takeMantissa cs).1 ++ exponent ∧
      s.lexeme = .number (String.ofList s.spelling) := by
  obtain ⟨lexeme, spelling, rest⟩ := s
  constructor
  · -- Each of the four checks is passed in turn.
    intro h
    unfold number at h
    dsimp only [bind, Except.bind, throw, throwThe, MonadExceptOf.throw, pure, Except.pure] at h
    split at h
    · cases h
    · rename_i hpoint
      split at h
      · cases h
      · rename_i hdigit
        split at h
        · cases h
        · rename_i v hexponent
          split at h
          · cases h
          · rename_i hrest
            cases h
            refine ⟨v.1, checkNoPoint_eq_ok_iff.mp hpoint, ?_, hexponent,
              checkNoPoint_eq_ok_iff.mp hrest, rfl, rfl⟩
            simpa using hdigit
  · rintro ⟨exponent, hpoint, hdigit, hexponent, hrest, hspelling, hlexeme⟩
    dsimp only at hexponent hrest hspelling hlexeme
    subst hspelling hlexeme
    unfold number
    dsimp only [bind, Except.bind, throw, throwThe, MonadExceptOf.throw, pure, Except.pure]
    rw [checkNoPoint_eq_ok_iff.mpr hpoint]
    simp only [hdigit, hexponent, checkNoPoint_eq_ok_iff.mpr hrest]
    rfl

/-- A number starts with a digit or with a point. -/
theorem number_start {cs : List Char} {s : Scanned} (h : number cs = .ok s) :
    ∃ c ds, s.spelling = c :: ds ∧ (isDigit c = true ∨ c = '.') := by
  obtain ⟨exponent, -, hany, -, -, hspelling, -⟩ := number_eq_ok_iff.mp h
  have hchars := takeMantissa_chars cs
  cases hmantissa : (takeMantissa cs).1 with
  | nil =>
    rw [hmantissa] at hany
    cases hany
  | cons c ds =>
    rw [hmantissa] at hchars hspelling
    exact ⟨c, ds ++ exponent, hspelling, hchars c List.mem_cons_self⟩

/-- A number is read alike in front of a text that does not go on with it. -/
theorem number_append_of_head {cs more : List Char} {s : Scanned} (h : number cs = .ok s)
    (hmore : ∀ c ∈ more.head?, isNamePart c = false ∧ c ≠ '.') :
    number (cs ++ more) = .ok { s with rest := s.rest ++ more } := by
  have hdigit : ∀ c ∈ more.head?, isDigit c = false := by
    intro c hc
    exact eq_false_of_imp isNamePart_of_isDigit (hmore c hc).1
  have hletter : ∀ c ∈ more.head?, isDigit c = false ∧ c ≠ 'e' ∧ c ≠ 'E' := by
    have he : isNamePart 'e' = true := by decide
    have hE : isNamePart 'E' = true := by decide
    intro c hc
    have hpart := (hmore c hc).1
    exact ⟨hdigit c hc, (ne_of_isNamePart he hpart).symm, (ne_of_isNamePart hE hpart).symm⟩
  -- Both checks for a point look at the next character only, which may now be the first appended.
  have hpoint : ∀ left : List Char, left.head? ≠ some '.' → (left ++ more).head? ≠ some '.' := by
    intro left hleft
    cases left with
    | nil => exact fun hhead => (hmore '.' hhead).2 rfl
    | cons d left => exact hleft
  obtain ⟨exponent, hmantissa, hany, hexponent, hrest, hspelling, hlexeme⟩ := number_eq_ok_iff.mp h
  have hfront := takeMantissa_append_of_head cs fun c hc => ⟨hdigit c hc, (hmore c hc).2⟩
  rw [number_eq_ok_iff, hfront]
  exact ⟨exponent, hpoint _ hmantissa, hany, takeExponent_append_of_head hexponent hletter,
    hpoint _ hrest, hspelling, hlexeme⟩

theorem number_self {cs : List Char} {s : Scanned} (h : number cs = .ok s) :
    number s.spelling = .ok ⟨s.lexeme, s.spelling, []⟩ := by
  obtain ⟨exponent, hmantissa, hany, hexponent, hrest, hspelling, hlexeme⟩ := number_eq_ok_iff.mp h
  obtain ⟨hself, hletter⟩ := takeExponent_self hexponent
  -- The exponent by itself ends the mantissa, as it did in the text.
  have hhead : ∀ c ∈ exponent.head?, isDigit c = false ∧ c ≠ '.' := by
    intro c hc
    rcases hletter c hc with rfl | rfl <;> decide
  have hfront := takeMantissa_append_of_head (takeMantissa cs).1 hhead
  rw [takeMantissa_self] at hfront
  rw [number_eq_ok_iff, hspelling, hfront]
  refine ⟨exponent, ?_, hany, hself, by simp, rfl, hspelling ▸ hlexeme⟩
  intro hpoint
  exact (hhead '.' hpoint).2 rfl

theorem number_ne_nil {cs : List Char} {s : Scanned} (h : number cs = .ok s) : s.spelling ≠ [] := by
  intro hnil
  have hself := number_self h
  rw [hnil] at hself
  cases hself

theorem number_rest {cs : List Char} {s : Scanned} (h : number cs = .ok s) :
    ∀ c ∈ s.rest.head?, isDigit c = false ∧ c ≠ '.' := by
  obtain ⟨exponent, -, -, hexponent, hrest, -, -⟩ := number_eq_ok_iff.mp h
  intro c hc
  refine ⟨takeExponent_rest hexponent (takeMantissa_rest cs) c hc, ?_⟩
  intro heq
  subst heq
  exact hrest hc

/-! ## Strings -/

theorem takeClosing?_append_of_head {q : Char} {cs text rest more : List Char}
    (h : takeClosing? q cs = some (text, rest)) (hmore : ∀ c ∈ more.head?, c ≠ q) :
    takeClosing? q (cs ++ more) = some (text, rest ++ more) := by
  fun_induction takeClosing? q cs generalizing text rest with
  | case1 => cases h
  | case2 =>
    -- A second mark behind the last one would make a doubled mark of it.
    cases h
    cases more with
    | nil => simp [takeClosing?]
    | cons d more =>
      have hd : d ≠ q := hmore d rfl
      simp [takeClosing?, hd]
  | case3 c hc => cases h
  | case4 cs ih =>
    obtain ⟨⟨t, r⟩, ht, hpair⟩ := Option.map_eq_some_iff.mp h
    cases hpair
    simp [takeClosing?, ih ht]
  | case5 d cs hd =>
    cases h
    simp [takeClosing?, hd]
  | case6 c d cs hc ih =>
    obtain ⟨⟨t, r⟩, ht, hpair⟩ := Option.map_eq_some_iff.mp h
    cases hpair
    have hrest := ih ht
    rw [List.cons_append] at hrest
    simp [takeClosing?, hc, hrest]

theorem takeClosing?_self {q : Char} {cs text rest : List Char}
    (h : takeClosing? q cs = some (text, rest)) : takeClosing? q text = some (text, []) := by
  fun_induction takeClosing? q cs generalizing text rest with
  | case1 => cases h
  | case2 =>
    cases h
    simp [takeClosing?]
  | case3 c hc => cases h
  | case4 cs ih =>
    obtain ⟨⟨t, r⟩, ht, hpair⟩ := Option.map_eq_some_iff.mp h
    cases hpair
    simp [takeClosing?, ih ht]
  | case5 d cs hd =>
    cases h
    simp [takeClosing?]
  | case6 c d cs hc ih =>
    obtain ⟨⟨t, r⟩, ht, hpair⟩ := Option.map_eq_some_iff.mp h
    cases hpair
    have hself := ih ht
    cases t with
    | nil => cases hself
    | cons e t => simp [takeClosing?, hc, hself]

theorem takeClosing?_rest {q : Char} {cs text rest : List Char}
    (h : takeClosing? q cs = some (text, rest)) : ∀ c ∈ rest.head?, c ≠ q := by
  fun_induction takeClosing? q cs generalizing text rest with
  | case1 => cases h
  | case2 =>
    cases h
    rintro c ⟨⟩
  | case3 c hc => cases h
  | case4 cs ih =>
    obtain ⟨⟨t, r⟩, ht, hpair⟩ := Option.map_eq_some_iff.mp h
    cases hpair
    exact ih ht
  | case5 d cs hd =>
    cases h
    rintro c ⟨⟩
    exact hd
  | case6 c d cs hc ih =>
    obtain ⟨⟨t, r⟩, ht, hpair⟩ := Option.map_eq_some_iff.mp h
    cases hpair
    exact ih ht

theorem takeQuoted?_cons {c : Char} (hc : isMark c = true) (cs : List Char) :
    takeQuoted? (c :: cs) = (takeClosing? c cs).map fun (text, rest) => (c :: text, rest) := by
  simp only [takeQuoted?, hc, if_true]

theorem string_eq_ok_iff {c : Char} {cs : List Char} {s : Scanned} (hc : isMark c = true) :
    string (c :: cs) = .ok s ↔ ∃ text, takeClosing? c cs = some (text, s.rest) ∧
      s.spelling = c :: text ∧ s.lexeme = .string (String.ofList s.spelling) := by
  obtain ⟨lexeme, spelling, rest⟩ := s
  unfold string
  rw [takeQuoted?_cons hc]
  cases hclosing : takeClosing? c cs with
  | none => simp
  | some found =>
    obtain ⟨text, left⟩ := found
    simp only [Option.map_some, Except.ok.injEq, Scanned.mk.injEq, Option.some.injEq,
      Prod.mk.injEq]
    constructor
    · rintro ⟨rfl, rfl, rfl⟩
      exact ⟨text, ⟨rfl, rfl⟩, rfl, rfl⟩
    · rintro ⟨_, ⟨rfl, rfl⟩, rfl, rfl⟩
      exact ⟨rfl, rfl, rfl⟩

/-! ## Operators and punctuation -/

theorem mem_symbols_of_symbol? {cs : List Char} {s : Scanned} (h : symbol? cs = some s) :
    (s.spelling, s.lexeme) ∈ symbols := by
  obtain ⟨entry, hentry, rfl⟩ := Option.map_eq_some_iff.mp h
  exact List.mem_of_find?_eq_some hentry

theorem symbol?_self {cs : List Char} {s : Scanned} (h : symbol? cs = some s) :
    symbol? s.spelling = some ⟨s.lexeme, s.spelling, []⟩ := by
  have hall : ∀ entry ∈ symbols, symbol? entry.1 = some ⟨entry.2, entry.1, []⟩ := by
    simp only [symbols, List.forall_mem_cons]
    exact ⟨rfl, rfl, rfl, rfl, rfl, rfl, rfl, rfl, rfl, rfl, rfl, rfl, rfl, fun _ => nofun⟩
  exact hall _ (mem_symbols_of_symbol? h)

theorem symbol?_ne_nil {cs : List Char} {s : Scanned} (h : symbol? cs = some s) :
    s.spelling ≠ [] := by
  have hall : ∀ entry ∈ symbols, entry.1 ≠ [] := by decide
  exact hall _ (mem_symbols_of_symbol? h)

end Scanned

open Scanned

/-! ## All kinds of lexemes -/

/-- Whether a character behind the spelling of a lexeme goes on with it, or makes a call of it. A
name without digits may stand before the arguments of a call. -/
def Lexeme.joins : Lexeme → Char → Bool
  | .number _, c => isNamePart c || c = '.' || c = '('
  | .identifier name, c => isNamePart c || (c = '(' && name.toList.any isDecimal)
  | .boolean _, c => isNamePart c || c = '('
  | .string spelling, c => spelling.toList.head? = some c
  | .operator (.comparison .less), c => c = '=' || c = '>'
  | .operator (.comparison .greater), c => c = '='
  | _, _ => false

def Lexeme.Apart (l : Lexeme) (cs : List Char) : Prop :=
  ∀ c ∈ cs.head?, l.joins c = false

theorem Lexeme.Apart.number {s : String} {rest : List Char} (h : (Lexeme.number s).Apart rest) :
    ∀ c ∈ rest.head?, isNamePart c = false ∧ c ≠ '.' ∧ c ≠ '(' := by
  intro c hc
  have hjoins := h c hc
  simp only [Lexeme.joins, Bool.or_eq_false_iff, decide_eq_false_iff_not] at hjoins
  exact ⟨hjoins.1.1, hjoins.1.2, hjoins.2⟩

theorem Lexeme.Apart.string {q : Char} {text rest : List Char}
    (h : (Lexeme.string (String.ofList (q :: text))).Apart rest) : ∀ c ∈ rest.head?, c ≠ q := by
  intro c hc
  have hjoins := h c hc
  simp only [Lexeme.joins, String.toList_ofList, List.head?_cons, Option.some.injEq,
    decide_eq_false_iff_not] at hjoins
  exact Ne.symm hjoins

def Lexeme.isOperand : Lexeme → Bool
  | .number _ | .string _ | .boolean _ | .identifier _ => true
  | _ => false

def Lexeme.Spells (l : Lexeme) (spelling : List Char) : Prop :=
  ∃ c cs, spelling = c :: cs ∧ ofFront c cs = .ok ⟨l, spelling, []⟩

theorem Lexeme.Spells.ne_nil {l : Lexeme} {spelling : List Char} (h : l.Spells spelling) :
    spelling ≠ [] := by
  obtain ⟨c, cs, rfl, -⟩ := h
  exact List.cons_ne_nil c cs

namespace Scanned

theorem exists_cons_of_append {c : Char} {cs part rest : List Char} (h : part ++ rest = c :: cs)
    (hpart : part ≠ []) : ∃ ds, part = c :: ds := by
  obtain ⟨d, ds, rfl⟩ := List.exists_cons_of_ne_nil hpart
  obtain ⟨rfl, -⟩ := List.cons.inj h
  exact ⟨ds, rfl⟩

/-- How the first character decides what is read. -/
theorem ofFront_cases {c : Char} {cs : List Char} {s : Scanned} (h : ofFront c cs = .ok s) :
    (isMark c = true ∧ string (c :: cs) = .ok s) ∨
    (isMark c = false ∧ (isDigit c || c = '.') = true ∧ number (c :: cs) = .ok s) ∨
    (isMark c = false ∧ (isDigit c || c = '.') = false ∧ isNameStart c = true ∧
      name (c :: cs) = s) ∨
    (isMark c = false ∧ (isDigit c || c = '.') = false ∧ isNameStart c = false ∧
      symbol? (c :: cs) = some s) := by
  -- The four branches are tried in turn, so each later one records that the earlier ones failed.
  unfold ofFront at h
  split at h
  · rename_i hmark
    exact Or.inl ⟨hmark, h⟩
  · rename_i hmark
    rw [Bool.not_eq_true] at hmark
    split at h
    · rename_i hdigit
      exact Or.inr (Or.inl ⟨hmark, hdigit, h⟩)
    · rename_i hdigit
      rw [Bool.not_eq_true] at hdigit
      split at h
      · rename_i hname
        exact Or.inr (Or.inr (Or.inl ⟨hmark, hdigit, hname, Except.ok.inj h⟩))
      · rename_i hname
        rw [Bool.not_eq_true] at hname
        split at h
        · rename_i s' hsymbol
          cases h
          exact Or.inr (Or.inr (Or.inr ⟨hmark, hdigit, hname, hsymbol⟩))
        · cases h

theorem ofFront_of_isMark {c : Char} {cs : List Char} (hmark : isMark c = true) :
    ofFront c cs = string (c :: cs) := by
  simp only [ofFront, hmark, if_true]

theorem ofFront_of_isDigit {c : Char} {cs : List Char} (hmark : isMark c = false)
    (hdigit : (isDigit c || c = '.') = true) : ofFront c cs = number (c :: cs) := by
  simp only [ofFront, hmark, hdigit, Bool.false_eq_true, if_false, if_true]

theorem ofFront_of_isNameStart {c : Char} {cs : List Char} (hmark : isMark c = false)
    (hdigit : (isDigit c || c = '.') = false) (hname : isNameStart c = true) :
    ofFront c cs = .ok (name (c :: cs)) := by
  simp only [ofFront, hmark, hdigit, hname, Bool.false_eq_true, if_false, if_true]

theorem ofFront_of_symbol? {c : Char} {cs : List Char} {s : Scanned} (hmark : isMark c = false)
    (hdigit : (isDigit c || c = '.') = false) (hname : isNameStart c = false)
    (hsymbol : symbol? (c :: cs) = some s) : ofFront c cs = .ok s := by
  simp only [ofFront, hmark, hdigit, hname, hsymbol, Bool.false_eq_true, if_false]

theorem name_of_all {c : Char} {cs : List Char} (h : ∀ d ∈ c :: cs, isNamePart d = true) :
    name (c :: cs) = ⟨nameLexeme (c :: cs), c :: cs, []⟩ := by
  unfold name
  rw [List.takeWhile_eq_self_iff.mpr h, List.dropWhile_eq_nil_iff.mpr h]

/-- What is read off the front of a text spells its lexeme by itself. -/
theorem ofFront_spells {c : Char} {cs : List Char} {s : Scanned} (h : ofFront c cs = .ok s) :
    s.lexeme.Spells s.spelling := by
  have happend := ofFront_append h
  rcases ofFront_cases h with ⟨hmark, hs⟩ | ⟨hmark, hdigit, hs⟩ | ⟨hmark, hdigit, hname, rfl⟩ |
    ⟨hmark, hdigit, hname, hs⟩
  · obtain ⟨text, hclosing, hspelling, hlexeme⟩ := (string_eq_ok_iff hmark).mp hs
    refine ⟨c, text, hspelling, ?_⟩
    rw [ofFront_of_isMark hmark, string_eq_ok_iff hmark]
    exact ⟨text, takeClosing?_self hclosing, hspelling, hlexeme⟩
  · obtain ⟨ds, hspelling⟩ := exists_cons_of_append happend (number_ne_nil hs)
    refine ⟨c, ds, hspelling, ?_⟩
    rw [ofFront_of_isDigit hmark hdigit, ← hspelling]
    exact number_self hs
  · have hpart := isNamePart_of_isNameStart hname
    have hspelling : (name (c :: cs)).spelling = c :: cs.takeWhile isNamePart :=
      List.takeWhile_cons_of_pos hpart
    refine ⟨c, cs.takeWhile isNamePart, hspelling, ?_⟩
    rw [ofFront_of_isNameStart hmark hdigit hname, name_of_all, ← hspelling]
    · rfl
    · -- All characters of the spelling go on with a name, the first among them.
      rintro d hd
      rcases List.mem_cons.mp hd with rfl | hd
      · exact hpart
      · exact List.mem_takeWhile_imp hd
  · have hself := symbol?_self hs
    obtain ⟨ds, hspelling⟩ := exists_cons_of_append happend (symbol?_ne_nil hs)
    refine ⟨c, ds, hspelling, ?_⟩
    rw [hspelling] at hself ⊢
    exact ofFront_of_symbol? hmark hdigit hname hself

theorem isNamePart_of_joins_nameLexeme {spelling : List Char} {c : Char}
    (h : (nameLexeme spelling).joins c = false) : isNamePart c = false := by
  unfold nameLexeme at h
  split at h
  · simp only [Lexeme.joins, Bool.or_eq_false_iff] at h
    exact h.1
  · simp only [Lexeme.joins, Bool.or_eq_false_iff] at h
    exact h.1

theorem symbol?_append_of_apart {l : Lexeme} {spelling more : List Char}
    (h : symbol? spelling = some ⟨l, spelling, []⟩) (hmore : l.Apart more) :
    symbol? (spelling ++ more) = some ⟨l, spelling, more⟩ := by
  -- Only the marks that start another one depend on what follows.
  have hall : ∀ entry ∈ symbols, entry.2.Apart more →
      symbol? (entry.1 ++ more) = some ⟨entry.2, entry.1, more⟩ := by
    simp only [symbols, List.forall_mem_cons]
    -- These are `<` and `>`.
    refine ⟨fun _ => rfl, fun _ => rfl, fun _ => rfl, ?_, ?_, fun _ => rfl, fun _ => rfl,
      fun _ => rfl, fun _ => rfl, fun _ => rfl, fun _ => rfl, fun _ => rfl, fun _ => rfl, fun _ => nofun⟩
    · intro hless
      cases more with
      | nil => rfl
      | cons d more =>
        have hd : (d = '=' || d = '>') = false := hless d rfl
        simp only [Bool.or_eq_false_iff, decide_eq_false_iff_not] at hd
        simp [symbol?, symbols, Ne.symm hd.1, Ne.symm hd.2]
    · intro hgreater
      cases more with
      | nil => rfl
      | cons d more =>
        have hd : decide (d = '=') = false := hgreater d rfl
        simp only [decide_eq_false_iff_not] at hd
        simp [symbol?, symbols, Ne.symm hd]
  exact hall _ (mem_symbols_of_symbol? h) hmore

/-- A spelling is read as its lexeme in front of every text that does not join it. -/
theorem ofFront_append_of_apart {l : Lexeme} {c : Char} {cs more : List Char}
    (h : ofFront c cs = .ok ⟨l, c :: cs, []⟩) (hmore : l.Apart more) :
    ofFront c (cs ++ more) = .ok ⟨l, c :: cs, more⟩ := by
  rcases ofFront_cases h with ⟨hmark, hs⟩ | ⟨hmark, hdigit, hs⟩ | ⟨hmark, hdigit, hname, hs⟩ |
    ⟨hmark, hdigit, hname, hs⟩
  · obtain ⟨text, hclosing, hspelling, hlexeme⟩ := (string_eq_ok_iff hmark).mp hs
    dsimp only at hclosing hspelling hlexeme
    subst hlexeme
    rw [ofFront_of_isMark hmark, string_eq_ok_iff hmark]
    exact ⟨text, takeClosing?_append_of_head hclosing hmore.string, hspelling, rfl⟩
  · obtain ⟨-, -, -, -, -, -, hlexeme⟩ := number_eq_ok_iff.mp hs
    dsimp only at hlexeme
    subst hlexeme
    have hhead : ∀ d ∈ more.head?, isNamePart d = false ∧ d ≠ '.' := by
      intro d hd
      obtain ⟨hpart, hpoint, -⟩ := hmore.number d hd
      exact ⟨hpart, hpoint⟩
    rw [ofFront_of_isDigit hmark hdigit]
    exact number_append_of_head hs hhead
  · have hspelling : (c :: cs).takeWhile isNamePart = c :: cs := congrArg Scanned.spelling hs
    have hrest : (c :: cs).dropWhile isNamePart = [] := congrArg Scanned.rest hs
    have hlexeme : nameLexeme ((c :: cs).takeWhile isNamePart) = l := congrArg Scanned.lexeme hs
    rw [hspelling] at hlexeme
    subst hlexeme
    have hhead : ∀ d ∈ more.head?, isNamePart d = false := fun d hd =>
      isNamePart_of_joins_nameLexeme (hmore d hd)
    rw [ofFront_of_isNameStart hmark hdigit hname]
    unfold name
    rw [← List.cons_append, takeWhile_append_of_head _ hhead, dropWhile_append_of_head _ hhead,
      hspelling, hrest]
    rfl
  · have hsymbol := symbol?_append_of_apart hs hmore
    rw [List.cons_append] at hsymbol
    exact ofFront_of_symbol? hmark hdigit hname hsymbol

/-! ## What stops a lexeme -/

theorem symbol?_rest {cs : List Char} {s : Scanned} (h : symbol? cs = some s) :
    s.lexeme.Apart s.rest := by
  have hall : ∀ entry ∈ symbols, cs = entry.1 ++ s.rest → s.lexeme = entry.2 →
      entry.2.Apart s.rest := by
    simp only [symbols, List.forall_mem_cons]
    refine ⟨?_, ?_, ?_, ?_, ?_, ?_, ?_, ?_, ?_, ?_, ?_, ?_, ?_, fun _ => nofun⟩
    -- In front of `=` or `>` the longer mark would have been read instead of `<`.
    case refine_4 =>
      intro hcs hlexeme d hd
      cases hrest : s.rest with
      | nil =>
        rw [hrest] at hd
        cases hd
      | cons e rest =>
        rw [hrest] at hd hcs
        cases hd
        by_contra hjoins
        simp only [Lexeme.joins, Bool.not_eq_false, Bool.or_eq_true, decide_eq_true_eq] at hjoins
        subst hcs
        rcases hjoins with rfl | rfl
        · cases h
          cases hlexeme
        · cases h
          cases hlexeme
    -- In front of `=` the longer mark would have been read instead of `>`.
    case refine_5 =>
      intro hcs hlexeme d hd
      cases hrest : s.rest with
      | nil =>
        rw [hrest] at hd
        cases hd
      | cons e rest =>
        rw [hrest] at hd hcs
        cases hd
        by_contra hjoins
        simp only [Lexeme.joins, Bool.not_eq_false, decide_eq_true_eq] at hjoins
        subst hcs hjoins
        cases h
        cases hlexeme
    all_goals
      intro _ _ d _
      rfl
  exact hall _ (mem_symbols_of_symbol? h) (symbol?_append h).symm rfl

end Scanned

/-! ## The kinds of spellings -/

theorem nameLexeme_cases (spelling : List Char) :
    (∃ value, nameLexeme spelling = .boolean value ∧
        String.ofList (capitals spelling) = booleanWord value) ∨
      (nameLexeme spelling = .identifier (String.ofList spelling) ∧
        ofBooleanWord? (String.ofList (capitals spelling)) = none) := by
  unfold nameLexeme
  split
  · rename_i value hvalue
    exact Or.inl ⟨value, rfl, ofBooleanWord?_eq_some_iff.mp hvalue⟩
  · rename_i hnone
    exact Or.inr ⟨rfl, hnone⟩

theorem isOperand_nameLexeme (spelling : List Char) : (nameLexeme spelling).isOperand = true := by
  unfold nameLexeme
  split <;> rfl

theorem nameLexeme_ne_number (spelling : List Char) (s : String) :
    nameLexeme spelling ≠ .number s := by
  unfold nameLexeme
  split <;> exact fun h => by cases h

theorem nameLexeme_ne_string (spelling : List Char) (s : String) :
    nameLexeme spelling ≠ .string s := by
  unfold nameLexeme
  split <;> exact fun h => by cases h

theorem isOperand_of_symbol {spelling : List Char} {l : Lexeme} (h : (spelling, l) ∈ symbols) :
    l.isOperand = false := by
  have hall : ∀ entry ∈ symbols, entry.2.isOperand = false := by decide
  exact hall _ h

namespace Lexeme

/-- A spelling is a quoted text, a number, a name or a mark. -/
theorem Spells.cases {l : Lexeme} {spelling : List Char} (h : l.Spells spelling) :
    (∃ q text, spelling = q :: text ∧ isMark q = true ∧ takeClosing? q text = some (text, []) ∧
        l = .string (String.ofList spelling)) ∨
      (Scanned.number spelling = .ok ⟨l, spelling, []⟩ ∧ l = .number (String.ofList spelling)) ∨
      (∃ c cs, spelling = c :: cs ∧ isNameStart c = true ∧ (isDigit c || c = '.') = false ∧
        (∀ d ∈ spelling, isNamePart d = true) ∧ l = nameLexeme spelling) ∨
      (spelling, l) ∈ symbols := by
  obtain ⟨c, cs, rfl, hfront⟩ := h
  -- The first character decides which of the four kinds of token this is.
  rcases ofFront_cases hfront with ⟨hmark, hs⟩ | ⟨-, -, hs⟩ | ⟨-, hdigit, hname, hs⟩ |
    ⟨-, -, -, hs⟩
  · obtain ⟨text, hclosing, hspelling, hlexeme⟩ := (string_eq_ok_iff hmark).mp hs
    obtain ⟨-, rfl⟩ := List.cons.inj hspelling
    exact Or.inl ⟨c, cs, rfl, hmark, hclosing, hlexeme⟩
  · obtain ⟨-, -, -, -, -, -, hlexeme⟩ := number_eq_ok_iff.mp hs
    exact Or.inr (Or.inl ⟨hs, hlexeme⟩)
  · have hspelling : (c :: cs).takeWhile isNamePart = c :: cs := congrArg Scanned.spelling hs
    have hlexeme : nameLexeme ((c :: cs).takeWhile isNamePart) = l := congrArg Scanned.lexeme hs
    rw [hspelling] at hlexeme
    exact Or.inr (Or.inr (Or.inl ⟨c, cs, rfl, hname, hdigit,
      List.takeWhile_eq_self_iff.mp hspelling, hlexeme.symm⟩))
  · exact Or.inr (Or.inr (Or.inr (mem_symbols_of_symbol? hs)))

theorem Spells.number {s : String} {spelling : List Char} (h : (Lexeme.number s).Spells spelling) :
    s = String.ofList spelling ∧ Scanned.number spelling = .ok ⟨.number s, spelling, []⟩ := by
  rcases h.cases with ⟨_, _, -, -, -, hl⟩ | ⟨hs, hl⟩ | ⟨_, _, -, -, -, -, hl⟩ | hl
  · cases hl
  · exact ⟨Lexeme.number.inj hl, hs⟩
  · exact absurd hl.symm (nameLexeme_ne_number spelling s)
  · cases isOperand_of_symbol hl

theorem Spells.string {s : String} {spelling : List Char} (h : (Lexeme.string s).Spells spelling) :
    s = String.ofList spelling ∧ ∃ q text, spelling = q :: text ∧ isMark q = true ∧
      takeClosing? q text = some (text, []) := by
  rcases h.cases with ⟨q, text, hspelling, hmark, hclosing, hl⟩ | ⟨-, hl⟩ |
    ⟨_, _, -, -, -, -, hl⟩ | hl
  · exact ⟨Lexeme.string.inj hl, q, text, hspelling, hmark, hclosing⟩
  · cases hl
  · exact absurd hl.symm (nameLexeme_ne_string spelling s)
  · cases isOperand_of_symbol hl

theorem spells_of_number {l : Lexeme} {spelling : List Char}
    (h : Scanned.number spelling = .ok ⟨l, spelling, []⟩) : l.Spells spelling := by
  obtain ⟨c, cs, hspelling, hc⟩ := number_start h
  dsimp only at hspelling
  refine ⟨c, cs, hspelling, ?_⟩
  rcases hc with hdigit | rfl
  · have hmark := isMark_of_isNamePart (isNamePart_of_isDigit hdigit)
    rw [ofFront_of_isDigit hmark (by simp [hdigit]), ← hspelling]
    exact h
  · rw [ofFront_of_isDigit (by decide) (by decide), ← hspelling]
    exact h

theorem spells_name {c : Char} {cs : List Char} (hstart : isNameStart c = true)
    (hdigit : (isDigit c || c = '.') = false) (hparts : ∀ d ∈ c :: cs, isNamePart d = true) :
    (nameLexeme (c :: cs)).Spells (c :: cs) := by
  have hmark := isMark_of_isNamePart (hparts c List.mem_cons_self)
  refine ⟨c, cs, rfl, ?_⟩
  rw [ofFront_of_isNameStart hmark hdigit hstart, name_of_all hparts]

end Lexeme

end Spreadsheet
