import Spreadsheet.Proofs.Formula.Spans

/-!
# Strings in a formula that moves

Moving the references of a text knows nothing of tokens, and still it finds the strings that the
tokens are. A text that is cut into tokens moves between its strings, each part as if it stood alone,
and the strings stay.
-/

namespace Spreadsheet

open Text Scanned Piece

variable {rows columns : Int}

/-- A text that is threaded with strings: what stands in front of each of them, and what stands behind
the last one. -/
inductive Threaded where
  | last (gap : String)
  | string (gap literal : String) (rest : Threaded)

namespace Threaded

def text : Threaded → String
  | last gap => gap
  | string gap literal rest => gap ++ literal ++ rest.text

def gaps : Threaded → List String
  | last gap => [gap]
  | string gap _ rest => gap :: rest.gaps

def literals : Threaded → List String
  | last _ => []
  | string _ literal rest => literal :: rest.literals

def shifted (rows columns : Int) : Threaded → Except ShiftError String
  | last gap => shiftReferences gap rows columns
  | string gap literal rest => do
    let front ← shiftReferences gap rows columns
    let back ← rest.shifted rows columns
    return front ++ literal ++ back

def cutFrom (place : Int) (cs : List Char) : List Token → Threaded
  | [] => last (String.ofList cs)
  | ⟨.string s, position⟩ :: ts =>
    string (String.ofList (cs.take (position - place).toNat)) s
      (cutFrom (position + s.length) (cs.drop (position + s.length - place).toNat) ts)
  | _ :: ts => cutFrom place cs ts

def ofTokens (text : String) (ts : List Token) : Threaded :=
  cutFrom (-(text.toList.takeWhile isSpace).length) text.toList ts

end Threaded

def Token.literals (ts : List Token) : List String :=
  ts.filterMap fun t =>
    match t.lexeme with
    | .string s => some s
    | _ => none

/-! ## Texts that move between their strings -/

namespace Threaded

/-- Whether a text is threaded with all of its strings: no gap has a mark of one, and each string ends
with the mark that closes it. -/
inductive Complete : Threaded → Prop where
  | last {gap : String} (hgap : ∀ c ∈ gap.toList, isMark c = false) : Complete (last gap)
  | string {gap literal : String} {rest : Threaded} {q : Char} {more : List Char}
      (hgap : ∀ c ∈ gap.toList, isMark c = false) (hliteral : literal.toList = q :: more)
      (hq : isMark q = true) (hclosing : takeClosing? q more = some (more, []))
      (hends : ∀ c ∈ rest.text.toList.head?, c ≠ q) (hrest : Complete rest) :
      Complete (string gap literal rest)

theorem split_append_string {gap more rest : List Char} {q : Char}
    (hgap : ∀ c ∈ gap, isMark c = false) (hq : isMark q = true)
    (hclosing : takeClosing? q more = some (more, [])) (hends : ∀ c ∈ rest.head?, c ≠ q) :
    split (gap ++ (q :: more ++ rest)) = split gap ++ .verbatim (q :: more) :: split rest := by
  have hpart := isNamePart_of_isMark hq
  have hcall : Ends gap (q :: more ++ rest) := by
    intro c hc
    cases hc
    refine ⟨hpart, ?_⟩
    rintro rfl
    cases hq
  have hself : split (q :: more) = [.verbatim (q :: more)] := by
    show piecesFrom none (q :: more) = _
    rw [piecesFrom_literal none (takeLiteral?_self hq hclosing), piecesFrom_nil]
  -- The string ends with its mark, and no name goes on behind a mark.
  have hlast : (q :: more).getLast?.any joinsBefore = false := by
    rw [List.getLast?_cons, takeClosing?_getLast hclosing]
    exact eq_false_of_imp isNamePart_of_joinsBefore hpart
  show piecesFrom none (gap ++ (q :: more ++ rest)) = _
  rw [piecesFrom_append hgap hcall, piecesFrom_string hq hclosing hends, hself,
    piecesFrom_of_joinsBefore (Or.inl hlast)]
  rfl

theorem shiftReferences_append {gap literal rest : String}
    (h : split (gap ++ literal ++ rest).toList =
      split gap.toList ++ .verbatim literal.toList :: split rest.toList) :
    shiftReferences (gap ++ literal ++ rest) rows columns = do
      let front ← shiftReferences gap rows columns
      let back ← shiftReferences rest rows columns
      return front ++ literal ++ back := by
  simp only [shiftReferences, h, List.mapM_append, List.mapM_cons]
  cases hgap : (split gap.toList).mapM (Piece.shifted rows columns) with
  | error e => rfl
  | ok front =>
    cases hrest : (split rest.toList).mapM (Piece.shifted rows columns) with
    | error e => rfl
    | ok back =>
      show Except.ok (String.ofList (front ++ (literal.toList :: back)).flatten) =
        Except.ok (String.ofList front.flatten ++ literal ++ String.ofList back.flatten)
      rw [List.flatten_append, List.flatten_cons, String.ofList_append, String.ofList_append,
        String.ofList_toList, String.append_assoc]

/-- Each gap moves as if it stood alone. -/
theorem Complete.shiftReferences_text {s : Threaded} (h : s.Complete) (rows columns : Int) :
    shiftReferences s.text rows columns = s.shifted rows columns := by
  -- The first gap and its string are split off, since no piece reaches across the end of a string.
  induction h with
  | last hgap => rfl
  | @string gap literal rest q more hgap hliteral hq hclosing hends hrest ih =>
    have hsplit := split_append_string hgap hq hclosing hends
    rw [← hliteral] at hsplit
    show shiftReferences (gap ++ literal ++ rest.text) rows columns = _
    rw [shiftReferences_append (by rw [← hsplit]; simp), ih]
    rfl

/-- A threaded text moves if and only if all of its gaps do. -/
theorem exists_shifted_iff {s : Threaded} :
    (∃ moved, s.shifted rows columns = .ok moved) ↔
      ∀ gap ∈ s.gaps, ∃ moved, shiftReferences gap rows columns = .ok moved := by
  -- The gap in front moves by itself, and the strings do not move at all.
  induction s with
  | last gap => simp [gaps, shifted]
  | string gap literal rest ih =>
    rw [gaps, List.forall_mem_cons, ← ih, shifted]
    constructor
    · rintro ⟨moved, h⟩
      obtain ⟨front, hfront, h⟩ := bind_eq_ok h
      obtain ⟨back, hback, -⟩ := bind_eq_ok h
      exact ⟨⟨front, hfront⟩, back, hback⟩
    · rintro ⟨⟨front, hfront⟩, back, hback⟩
      rw [hfront, hback]
      exact ⟨_, rfl⟩

/-! ## The strings among the tokens -/

theorem literals_cutFrom (place : Int) (cs : List Char) (ts : List Token) :
    (cutFrom place cs ts).literals = Token.literals ts := by
  -- A token that is no string only lengthens the gap.
  induction ts generalizing place cs with
  | nil => rfl
  | cons t ts ih =>
    obtain ⟨l, position⟩ := t
    cases l with
    | string s => exact congrArg (s :: ·) (ih _ _)
    | _ => exact ih _ _

structure Cuts (place : Int) (cs : List Char) (ts : List Token) : Prop where
  complete : (cutFrom place cs ts).Complete
  text_eq : (cutFrom place cs ts).text = String.ofList cs

namespace Cuts

theorem nil {place : Int} {cs : List Char} (h : ∀ c ∈ cs, isMark c = false) : Cuts place cs [] where
  complete := .last (by rw [String.toList_ofList]; exact h)
  text_eq := rfl

/-- Tokens that are no strings stay in the gap. -/
theorem other {place : Int} {cs : List Char} {l : Lexeme} {position : Nat} {ts : List Token}
    (hl : ∀ s, l ≠ .string s) (h : Cuts place cs ts) : Cuts place cs (⟨l, position⟩ :: ts) := by
  have hcut : cutFrom place cs (⟨l, position⟩ :: ts) = cutFrom place cs ts := by
    cases l with
    | string s => exact absurd rfl (hl s)
    | _ => rfl
  exact ⟨hcut ▸ h.complete, hcut ▸ h.text_eq⟩

/-- A string ends the gap in front of it. -/
theorem string {place : Int} {gap spelling rest : List Char} {s : String} {position : Nat}
    {ts : List Token} (hplace : place + gap.length = position)
    (hgap : ∀ c ∈ gap, isMark c = false) (hspells : (Lexeme.string s).Spells spelling)
    (hapart : (Lexeme.string s).Apart rest)
    (h : Cuts ((position + spelling.length : Nat) : Int) rest ts) :
    Cuts place (gap ++ (spelling ++ rest)) (⟨.string s, position⟩ :: ts) := by
  obtain ⟨rfl, q, more, rfl, hq, hclosing⟩ := hspells.string
  have hfront : (position - place : Int).toNat = gap.length := by omega
  have hbehind : (position + (String.ofList (q :: more)).length - place : Int).toNat =
      gap.length + (q :: more).length := by
    rw [String.length_ofList]
    omega
  -- The parts of the text around the string are the gap and the rest.
  have hcut : cutFrom place (gap ++ (q :: more ++ rest))
      (⟨.string (String.ofList (q :: more)), position⟩ :: ts) =
      .string (String.ofList gap) (String.ofList (q :: more))
        (cutFrom ((position + (q :: more).length : Nat) : Int) rest ts) := by
    rw [cutFrom, hfront, hbehind, List.take_left, ← List.drop_drop, List.drop_left,
      List.drop_left, String.length_ofList]
    rfl
  constructor
  · rw [hcut]
    refine .string ?_ String.toList_ofList hq hclosing ?_ h.complete
    · rw [String.toList_ofList]
      exact hgap
    · rw [h.text_eq, String.toList_ofList]
      exact hapart.string
  · rw [hcut]
    show String.ofList gap ++ String.ofList (q :: more) ++ (cutFrom _ rest ts).text = _
    rw [h.text_eq, String.ofList_append, String.ofList_append, String.append_assoc]

/-- A string that is read off a text is apart from what follows it. -/
theorem apart_of_ofFront {c : Char} {cs : List Char} {s : Scanned} {literal : String}
    (h : ofFront c cs = .ok s) (hstring : s.lexeme = .string literal) : s.lexeme.Apart s.rest := by
  have hspells := ofFront_spells h
  rw [hstring] at hspells
  obtain ⟨-, q, more, hspelling, hq, -⟩ := hspells.string
  -- The text starts with the first character of the string, which is a mark.
  have happend := ofFront_append h
  rw [hspelling, List.cons_append] at happend
  obtain ⟨rfl, -⟩ := List.cons.inj happend
  rw [ofFront_of_isMark hq] at h
  exact apart_of_string hq h

/-- A text is cut at what is read off it. A part without strings may stand before that, and white
space behind it. -/
theorem of_scanFrom {n position : Nat} {place : Int} {gap cs back : List Char} {ts : List Token}
    (hn : cs.length ≤ n) (h : Token.scanFrom n position cs = .ok ts)
    (hplace : place + gap.length = position) (hgap : ∀ c ∈ gap, isMark c = false)
    (hback : ∀ c ∈ back, isSpace c = true) : Cuts place (gap ++ (cs ++ back)) ts := by
  have hspaces : ∀ c, isSpace c = true → isMark c = false := fun c =>
    eq_false_of_imp_false isSpace_of_isMark
  have hmarks : ∀ c ∈ gap ++ back, isMark c = false :=
    List.forall_mem_append.mpr ⟨hgap, fun c hc => hspaces c (hback c hc)⟩
  -- Each step takes a character at least. What it takes goes into the gap, or it is a string.
  induction n generalizing position place gap cs ts with
  | zero =>
    obtain rfl := List.eq_nil_of_length_eq_zero (Nat.le_zero.mp hn)
    cases h
    exact .nil hmarks
  | succ n ih =>
    have hmore : ∀ (part rest : List Char) (us : List Token), (∀ c ∈ part, isMark c = false) →
        rest.length ≤ n → Token.scanFrom n (position + part.length) rest = .ok us →
        Cuts place (gap ++ (part ++ (rest ++ back))) us := by
      intro part rest us hpart hrest hus
      have hall : ∀ c ∈ gap ++ part, isMark c = false := List.forall_mem_append.mpr ⟨hgap, hpart⟩
      have hcuts := @ih (position + part.length) place (gap ++ part) rest us hrest hus
        (by rw [List.length_append]; omega) hall
        (List.forall_mem_append.mpr ⟨hall, (List.forall_mem_append.mp hmarks).2⟩)
      rwa [List.append_assoc] at hcuts
    cases cs with
    | nil =>
      cases h
      exact .nil hmarks
    | cons c cs =>
      unfold Token.scanFrom at h
      split at h
      · rename_i hspace
        exact hmore [c] cs ts (List.forall_mem_singleton.mpr (hspaces c hspace))
          (Nat.le_of_succ_le_succ hn) h
      · split at h
        · cases h
        · rename_i s hs
          obtain ⟨us, hus, rfl⟩ := map_eq_ok h
          have hspells := ofFront_spells hs
          have hlt := length_rest_lt hs
          have hrest : s.rest.length ≤ n := by omega
          rw [← ofFront_append hs, List.append_assoc]
          by_cases hstring : ∃ literal, s.lexeme = .string literal
          · obtain ⟨literal, hliteral⟩ := hstring
            have hapart := apart_of_ofFront hs hliteral
            rw [hliteral] at hspells hapart ⊢
            refine .string hplace hgap hspells (hapart.append_spaces hspells hback) ?_
            exact @ih _ _ [] s.rest us hrest hus (Int.add_zero _) (List.forall_mem_nil _)
              (List.forall_mem_append.mp hmarks).2
          · refine .other (fun literal hl => hstring ⟨literal, hl⟩)
              (hmore s.spelling s.rest us ?_ hrest hus)
            intro d hd
            by_contra hmark
            exact hstring (hspells.eq_string_of_isMark hd ((Bool.not_eq_false _).mp hmark))

theorem of_scan {text : String} {ts : List Token} (h : Token.scan text = .ok ts) :
    Cuts (-(text.toList.takeWhile isSpace).length) text.toList ts := by
  obtain ⟨back, htext, hback⟩ := trim_eq_takeWhile text.toList
  have hfront : ∀ c ∈ text.toList.takeWhile isSpace, isMark c = false := fun c hc =>
    eq_false_of_imp_false isSpace_of_isMark (List.mem_takeWhile_imp hc)
  have hcuts := of_scanFrom (Nat.le_refl _) h (Int.add_left_neg _) hfront hback
  rwa [← htext] at hcuts

end Cuts

/-- A text that is cut into tokens moves as its gaps between the strings do, each as if it stood
alone, with every string as it was. It cannot move if and only if one of the gaps cannot. -/
theorem shiftReferences_ofTokens {text : String} {ts : List Token} (h : Token.scan text = .ok ts)
    (rows columns : Int) :
    (ofTokens text ts).text = text ∧
      (ofTokens text ts).literals = Token.literals ts ∧
      shiftReferences text rows columns = (ofTokens text ts).shifted rows columns ∧
      ((∃ moved, shiftReferences text rows columns = .ok moved) ↔
        ∀ gap ∈ (ofTokens text ts).gaps, ∃ moved, shiftReferences gap rows columns = .ok moved) := by
  obtain ⟨hcomplete, htext⟩ := Cuts.of_scan h
  rw [String.ofList_toList] at htext
  have hmoves := hcomplete.shiftReferences_text rows columns
  rw [htext] at hmoves
  refine ⟨htext, literals_cutFrom _ _ _, hmoves, ?_⟩
  rw [hmoves]
  exact exists_shifted_iff

/-- The marks inside the string neither end it nor start another one, so both references outside of
it move. -/
theorem shiftReferences_ofTokens_sample :
    Token.scan " A1+'A1''\"'+$B2 " =
        .ok [⟨.identifier "A1", 0⟩, ⟨.operator (.arithmetic .add), 2⟩, ⟨.string "'A1''\"'", 3⟩,
          ⟨.operator (.arithmetic .add), 10⟩, ⟨.identifier "$B2", 11⟩] ∧
      shiftReferences " A1+'A1''\"'+$B2 " 1 1 =
        (string " A1+" "'A1''\"'" (last "+$B2 ")).shifted 1 1 ∧
      shiftReferences " A1+'A1''\"'+$B2 " 1 1 = .ok " B2+'A1''\"'+$B3 " := by
  have hscan : Token.scan " A1+'A1''\"'+$B2 " =
      .ok [⟨.identifier "A1", 0⟩, ⟨.operator (.arithmetic .add), 2⟩, ⟨.string "'A1''\"'", 3⟩,
        ⟨.operator (.arithmetic .add), 10⟩, ⟨.identifier "$B2", 11⟩] := by rfl
  exact ⟨hscan, (shiftReferences_ofTokens hscan 1 1).2.2.1, by rfl⟩

end Threaded

end Spreadsheet
