import Spreadsheet.Proofs.Formula.Exponents

/-!
# The text of a formula that moves

A text that is cut into lexemes is cut into what these become, as long as its numbers stay numbers.
They do whenever the moved text is a row of lexemes that follow each other as in a formula.
-/

namespace Spreadsheet

open Text Scanned Grammar Piece

variable {rows columns : Int}

theorem inert_of_isSpace {c : Char} (h : isSpace c = true) : Inert c := by
  obtain ⟨hpart, hmark, -⟩ := spaces_apart h
  refine ⟨hmark, ?_, ?_⟩
  · exact eq_false_of_imp isNamePart_of_isCapital hpart
  · intro heq
    subst heq
    cases hpart

/-- White space moves to itself, and no name ends with it. -/
theorem Moves.of_space {c : Char} {cs out : List Char} {previous : Option Char}
    (hspace : isSpace c = true) (h : Moves rows columns (piecesFrom previous (c :: cs)) out) :
    ∃ more, out = c :: more ∧ Moves rows columns (piecesFrom (some c) cs) more ∧
      joinsBefore c = false := by
  rw [piecesFrom_inert previous (inert_of_isSpace hspace)] at h
  obtain ⟨more, rfl, hmore⟩ := h.of_verbatim
  refine ⟨more, rfl, hmore, ?_⟩
  exact eq_false_of_imp isNamePart_of_joinsBefore (spaces_apart hspace).1

theorem Moves.of_spelling {l : Lexeme} {spelling cs out : List Char} {previous : Option Char}
    (hspells : l.Spells spelling) (hapart : l.Apart cs)
    (hprevious : previous.any joinsBefore = true →
      ∀ c ∈ (spelling ++ cs).head?, isNameStart c = false)
    (h : Moves rows columns (piecesFrom previous (spelling ++ cs)) out) :
    ∃ moved more, out = moved ++ more ∧ Moves rows columns (split spelling) moved ∧
      Moves rows columns (piecesFrom spelling.getLast? cs) more := by
  have hhead : previous.any joinsBefore = true →
      ∀ c ∈ spelling.head?, isNameStart c = false := by
    intro hjoins c hc
    obtain ⟨d, ds, hcons⟩ := List.exists_cons_of_ne_nil hspells.ne_nil
    rw [hcons] at hc
    exact hprevious hjoins c (by rw [hcons]; exact hc)
  rw [piecesFrom_spelling hspells hapart hhead] at h
  exact h.of_append

def NumbersStay (rows columns : Int) (ls : List Lexeme) : Prop :=
  ∀ s, .number s ∈ ls → ∀ moved : String, Moves rows columns (split s.toList) moved.toList →
    (Lexeme.number moved).Spells moved.toList

theorem NumbersStay.spells {ls : List Lexeme} (h : NumbersStay rows columns ls) {l : Lexeme}
    {spelling moved : List Char} (hl : l ∈ ls) (hspells : l.Spells spelling)
    (hmoves : Moves rows columns (split spelling) moved) (s : String) (hs : l = .number s) :
    (Lexeme.number (String.ofList moved)).Spells moved := by
  subst hs
  obtain ⟨rfl, -⟩ := hspells.number
  have hstay := h _ hl (String.ofList moved) (by
    rw [String.toList_ofList, String.toList_ofList]
    exact hmoves)
  rw [String.toList_ofList] at hstay
  exact hstay

/-- A text whose numbers stay numbers is cut into what its lexemes become. -/
theorem Cut.moves {cs out : List Char} {ls : List Lexeme} {previous : Option Char}
    (h : Cut cs ls) (hmoves : Moves rows columns (piecesFrom previous cs) out)
    (hprevious : previous.any joinsBefore = true → ∀ c ∈ cs.head?, isNameStart c = false)
    (hstay : NumbersStay rows columns ls) :
    ∃ ms, Cut out ms ∧ List.Forall₂ (Lexeme.MovesTo rows columns) ls ms := by
  -- What precedes the rest of the text changes from lexeme to lexeme, and so does what comes out.
  induction h generalizing previous out with
  | nil =>
    cases hmoves
    exact ⟨[], .nil, .nil⟩
  | space hspace _ ih =>
    obtain ⟨more, rfl, hmore, hjoins⟩ := hmoves.of_space hspace
    obtain ⟨ms, hcut, hls⟩ := ih hmore (fun hcontra => by simp [hjoins] at hcontra) hstay
    exact ⟨ms, .space hspace hcut, hls⟩
  | lexeme hspells hapart _ ih =>
    obtain ⟨moved, more, rfl, hmoved, hmore⟩ := hmoves.of_spelling hspells hapart hprevious
    obtain ⟨ms, hcut, hls⟩ := ih hmore (isNameStart_of_apart hspells hapart)
      fun s hs => hstay s (List.mem_cons_of_mem _ hs)
    obtain ⟨m, hl, hm⟩ := hspells.moves hmoved (hstay.spells List.mem_cons_self hspells hmoved)
    exact ⟨m :: ms, .lexeme hm (hapart.moves hspells hl hmore) hcut, .cons hl hls⟩

/-- The numbers of a text stay numbers if the moved text is a row of lexemes that follow each other
as in a formula. -/
theorem Cut.numbersStay {cs out : List Char} {ls ms : List Lexeme} {previous : Option Char}
    (h : Cut cs ls) (hmoves : Moves rows columns (piecesFrom previous cs) out)
    (hprevious : previous.any joinsBefore = true → ∀ c ∈ cs.head?, isNameStart c = false)
    (hlexed : Lexed out ms) (hchain : ms.IsChain Follows) : NumbersStay rows columns ls := by
  -- The cut of the old text and the lexemes of the new one are followed side by side.
  induction h generalizing previous out ms with
  | nil => nofun
  | space hspace _ ih =>
    obtain ⟨more, rfl, hmore, hjoins⟩ := hmoves.of_space hspace
    rcases hlexed.front with ⟨-, hrest⟩ | ⟨s, ms', rfl, hs, -⟩
    · exact ih hmore (fun hcontra => by simp [hjoins] at hcontra) hrest hchain
    · rw [isSpace_of_ofFront hs] at hspace
      cases hspace
  | @lexeme l spelling cs ls hspells hapart _ ih =>
    obtain ⟨moved, more, rfl, hmoved, hmore⟩ := hmoves.of_spelling hspells hapart hprevious
    -- A number that does not stay one would end the row.
    have hnumber : ∀ s, l = .number s → (Lexeme.number (String.ofList moved)).Spells moved := by
      intro s heq
      subst heq
      obtain ⟨rfl, hs⟩ := hspells.number
      rcases Moves.number hs hmoved with rfl | ⟨mantissa, letters, digits, hexponential⟩
      · exact hspells
      · by_cases hletters : letters = ['E']
        · exact hexponential.spells hletters
        · exact absurd hchain (hexponential.not_isChain hletters hlexed)
    obtain ⟨m, hl, hm⟩ := hspells.moves hmoved hnumber
    -- The moved lexeme is the first that is read off the moved text, so the others make up its rest.
    obtain ⟨ms', rfl, hrest⟩ := Lexed.of_spells hm (hapart.moves hspells hl hmore) hlexed
    have hstay := ih hmore (isNameStart_of_apart hspells hapart) hrest hchain.of_cons
    intro s hs moved'' hmoved''
    rcases List.mem_cons.mp hs with rfl | hs
    · -- The lexeme itself: it moves in one way only.
      obtain ⟨rfl, -⟩ := hspells.number
      rw [String.toList_ofList] at hmoved''
      have hout := hmoved''.unique hmoved
      subst hout
      have hself := hnumber _ rfl
      rw [String.ofList_toList] at hself
      exact hself
    · exact hstay s hs moved'' hmoved''

end Spreadsheet
