import Spreadsheet.Proofs.Formula.Moving

/-!
# Where tokens are written

Each token of a formula is written in a span of its text that starts at the position of the token. The
spans come one behind the other, what lies between them is white space, and a mark of a quoted text
lies in the span of a string. So no character of a formula is lost, read twice or misplaced.
-/

namespace Spreadsheet

open Text Scanned

/-! ## How a lexeme is written -/

def Lexeme.WrittenAs (l : Lexeme) (spelling : List Char) : Prop :=
  match l with
  | .boolean value => capitals spelling = (booleanWord value).toList
  | l => spelling = l.text.toList

namespace Lexeme

theorem WrittenAs.eq_text {l : Lexeme} {spelling : List Char} (h : l.WrittenAs spelling)
    (hl : ∀ value, l ≠ .boolean value) : spelling = l.text.toList := by
  cases l with
  | boolean value => exact absurd rfl (hl value)
  | _ => exact h

theorem writtenAs_of_mem_symbols {l : Lexeme} {spelling : List Char} (h : (spelling, l) ∈ symbols) :
    l.WrittenAs spelling := by
  have hall : ∀ entry ∈ symbols, entry.2.WrittenAs entry.1 := by
    simp only [symbols, List.forall_mem_cons]
    exact ⟨rfl, rfl, rfl, rfl, rfl, rfl, rfl, rfl, rfl, rfl, rfl, rfl, rfl,
      List.forall_mem_nil _⟩
  exact hall _ h

theorem Spells.writtenAs {l : Lexeme} {spelling : List Char} (h : l.Spells spelling) :
    l.WrittenAs spelling := by
  rcases h.cases with ⟨_, _, -, -, -, rfl⟩ | ⟨-, rfl⟩ | ⟨_, _, -, -, -, -, rfl⟩ | hsymbol
  · exact String.toList_ofList.symm
  · exact String.toList_ofList.symm
  · rcases nameLexeme_cases spelling with ⟨value, hlexeme, hword⟩ | ⟨hlexeme, -⟩
    · rw [hlexeme]
      show capitals spelling = (booleanWord value).toList
      rw [← hword, String.toList_ofList]
    · rw [hlexeme]
      exact String.toList_ofList.symm
  · exact writtenAs_of_mem_symbols hsymbol

/-- Among all lexemes only a string is written with a mark of quoted texts. -/
theorem Spells.eq_string_of_isMark {l : Lexeme} {spelling : List Char} (h : l.Spells spelling)
    {c : Char} (hmem : c ∈ spelling) (hc : isMark c = true) : ∃ s, l = .string s := by
  rcases h.cases with ⟨_, _, -, -, -, hl⟩ | ⟨hs, -⟩ | ⟨_, _, -, -, -, hparts, -⟩ | hsymbol
  · exact ⟨_, hl⟩
  · have hnot := isMark_of_mem_number hs c hmem
    rw [hc] at hnot
    cases hnot
  · have hnot := isMark_of_isNamePart (hparts c hmem)
    rw [hc] at hnot
    cases hnot
  · have hnot := (isSpace_of_symbol hsymbol c hmem).2.2
    rw [hc] at hnot
    cases hnot

end Lexeme

/-! ## Spans -/

structure Span where
  start : Nat
  stop : Nat

namespace Span

def Covers (s : Span) (i : Nat) : Prop :=
  s.start ≤ i ∧ i < s.stop

def chars (s : Span) (cs : List Char) : List Char :=
  (cs.drop s.start).take (s.stop - s.start)

structure Holds (cs : List Char) (t : Token) (s : Span) : Prop where
  start_eq : s.start = t.position
  start_lt : s.start < s.stop
  stop_le : s.stop ≤ cs.length
  writtenAs : t.lexeme.WrittenAs (s.chars cs)

end Span

/-- Whether the spans are where the tokens are written, with white space around them, as far as a text
goes from some place on. -/
structure Layout (cs : List Char) (start : Nat) (ts : List Token) (spans : List Span) : Prop where
  holds : List.Forall₂ (Span.Holds cs) ts spans
  behind : ∀ s ∈ spans, start ≤ s.start
  ordered : spans.Pairwise fun s s' => s.stop ≤ s'.start
  spaces : ∀ i c, start ≤ i → cs[i]? = some c → (∀ s ∈ spans, ¬s.Covers i) → isSpace c = true
  marks : ∀ i c, start ≤ i → cs[i]? = some c → isMark c = true →
    ∃ p ∈ ts.zip spans, p.2.Covers i ∧ ∃ s, p.1.lexeme = .string s

namespace Layout

variable {cs rest spelling : List Char} {start : Nat} {c : Char} {l : Lexeme} {ts : List Token}
  {spans : List Span}

theorem getElem?_of_drop (h : cs.drop start = spelling ++ rest) {i : Nat}
    (hi : i < spelling.length) : cs[start + i]? = spelling[i]? := by
  rw [← List.getElem?_drop, h, List.getElem?_append_left hi]

theorem drop_of_append (h : cs.drop start = spelling ++ rest) :
    cs.drop (start + spelling.length) = rest := by
  rw [← List.drop_drop, h, List.drop_left]

theorem getElem?_of_drop_nil (h : cs.drop start = []) {i : Nat} (hi : start ≤ i) : cs[i]? = none :=
  List.getElem?_eq_none (Nat.le_trans (List.drop_eq_nil_iff.mp h) hi)

/-- A character from some place on is the one there, or it lies behind it. -/
theorem eq_or_lt_of_drop (h : cs.drop start = c :: rest) {i : Nat} {d : Char} (hi : start ≤ i)
    (hd : cs[i]? = some d) : d = c ∨ start + 1 ≤ i := by
  rcases Nat.eq_or_lt_of_le hi with rfl | hlt
  · left
    rw [← List.head?_drop, h, List.head?_cons] at hd
    exact (Option.some.inj hd).symm
  · exact .inr hlt

theorem nil (h : cs.drop start = []) : Layout cs start [] [] where
  holds := .nil
  behind := nofun
  ordered := .nil
  spaces := by
    intro i c hi hc _
    rw [getElem?_of_drop_nil h hi] at hc
    cases hc
  marks := by
    intro i c hi hc _
    rw [getElem?_of_drop_nil h hi] at hc
    cases hc

/-- White space in front of a layout belongs to no span. -/
theorem space (hdrop : cs.drop start = c :: rest) (hspace : isSpace c = true)
    (h : Layout cs (start + 1) ts spans) : Layout cs start ts spans := by
  refine ⟨h.holds, fun s hs => Nat.le_of_succ_le (h.behind s hs), h.ordered, ?_, ?_⟩
  · intro i d hi hd hnone
    rcases eq_or_lt_of_drop hdrop hi hd with rfl | hlt
    · exact hspace
    · exact h.spaces i d hlt hd hnone
  · intro i d hi hd hmark
    rcases eq_or_lt_of_drop hdrop hi hd with rfl | hlt
    · -- White space is no mark.
      rw [isSpace_of_isMark hmark] at hspace
      cases hspace
    · exact h.marks i d hlt hd hmark

/-- The spelling of a lexeme in front of a layout is one more span. -/
theorem lexeme (hdrop : cs.drop start = spelling ++ rest) (hspells : l.Spells spelling)
    (h : Layout cs (start + spelling.length) ts spans) :
    Layout cs start (⟨l, start⟩ :: ts) (⟨start, start + spelling.length⟩ :: spans) := by
  have hpos := List.length_pos_iff.mpr hspells.ne_nil
  have hlength := congrArg List.length hdrop
  rw [List.length_drop, List.length_append] at hlength
  have hchars : Span.chars ⟨start, start + spelling.length⟩ cs = spelling := by
    unfold Span.chars
    rw [hdrop, Nat.add_sub_cancel_left, List.take_left]
  refine ⟨.cons ⟨rfl, by dsimp only; omega, by dsimp only; omega, ?_⟩ h.holds, ?_, ?_, ?_, ?_⟩
  · rw [hchars]
    exact hspells.writtenAs
  · intro s hs
    rcases List.mem_cons.mp hs with rfl | hs
    · exact Nat.le_refl _
    · have hbehind := h.behind s hs
      omega
  · exact .cons h.behind h.ordered
  · intro i d hi hd hnone
    have hafter : start + spelling.length ≤ i := by
      by_contra hlt
      exact hnone _ List.mem_cons_self ⟨hi, Nat.not_le.mp hlt⟩
    exact h.spaces i d hafter hd fun s hs => hnone s (List.mem_cons_of_mem _ hs)
  · intro i d hi hd hmark
    by_cases hlt : i < start + spelling.length
    · -- The mark is in the new span, so this span is that of a string.
      have hmem : spelling[i - start]? = some d := by
        rw [← getElem?_of_drop hdrop (by omega), Nat.add_sub_cancel' hi, hd]
      have hstring := hspells.eq_string_of_isMark (List.mem_of_getElem? hmem) hmark
      exact ⟨_, List.mem_cons_self, ⟨hi, hlt⟩, hstring⟩
    · obtain ⟨p, hp, hcovers⟩ := h.marks i d (Nat.not_lt.mp hlt) hd hmark
      exact ⟨p, List.mem_cons_of_mem _ hp, hcovers⟩

/-- What is read off a text from some place on has a layout there. -/
theorem exists_of_scanFrom {n : Nat} (hn : (cs.drop start).length ≤ n)
    (h : Token.scanFrom n start (cs.drop start) = .ok ts) : ∃ spans, Layout cs start ts spans := by
  -- Each step takes a character at least, so the bound lasts to the end of the text.
  induction n generalizing start ts with
  | zero =>
    cases h
    exact ⟨[], .nil (List.eq_nil_of_length_eq_zero (Nat.le_zero.mp hn))⟩
  | succ n ih =>
    cases hdrop : cs.drop start with
    | nil =>
      rw [hdrop] at h
      cases h
      exact ⟨[], .nil hdrop⟩
    | cons c rest =>
      rw [hdrop] at h hn
      unfold Token.scanFrom at h
      split at h
      · rename_i hspace
        have hrest : cs.drop (start + 1) = rest := by
          rw [← List.tail_drop, hdrop, List.tail_cons]
        rw [← hrest] at h
        obtain ⟨spans, hspans⟩ := ih (by rw [hrest]; exact Nat.le_of_succ_le_succ hn) h
        exact ⟨spans, hspans.space hdrop hspace⟩
      · split at h
        · cases h
        · rename_i s hs
          have happend : cs.drop start = s.spelling ++ s.rest := hdrop.trans (ofFront_append hs).symm
          have hrest : cs.drop (start + s.spelling.length) = s.rest := drop_of_append happend
          have hlt := length_rest_lt hs
          obtain ⟨us, hus, rfl⟩ := map_eq_ok h
          rw [← hrest] at hus hlt
          obtain ⟨spans, hspans⟩ := ih (by omega) hus
          exact ⟨_, hspans.lexeme happend (ofFront_spells hs)⟩

/-- A text that is cut into tokens is white space around a text in which every token has its span. -/
theorem exists_of_scan {text : String} (h : Token.scan text = .ok ts) :
    (∃ front back, text.toList = front ++ (trim text.toList ++ back) ∧
      (∀ c ∈ front, isSpace c = true) ∧ ∀ c ∈ back, isSpace c = true) ∧
      ∃ spans, Layout (trim text.toList) 0 ts spans :=
  ⟨trim_eq text.toList, exists_of_scanFrom (Nat.le_refl _) h⟩

/-- The spans are those from 0 to 5, from 5 to 7 and from 7 to 15. -/
theorem exists_of_scan_sample :
    Token.scan " False<='it''s\"' " =
      .ok [⟨.boolean false, 0⟩, ⟨.operator (.comparison .lessOrEqual), 5⟩, ⟨.string "'it''s\"'", 7⟩] ∧
      ∃ spans, Layout (trim " False<='it''s\"' ".toList) 0
        [⟨.boolean false, 0⟩, ⟨.operator (.comparison .lessOrEqual), 5⟩, ⟨.string "'it''s\"'", 7⟩]
        spans := by
  have hscan : Token.scan " False<='it''s\"' " =
      .ok [⟨.boolean false, 0⟩, ⟨.operator (.comparison .lessOrEqual), 5⟩,
        ⟨.string "'it''s\"'", 7⟩] := by rfl
  exact ⟨hscan, (exists_of_scan hscan).2⟩

end Layout

end Spreadsheet
