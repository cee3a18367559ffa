import Spreadsheet.Proofs.Evaluation.Depth
import Spreadsheet.Proofs.Evaluation.Inlining
import Spreadsheet.Proofs.Formula.Joining
import Spreadsheet.Proofs.Formula.Written

/-!
# Texts in quotes

Every text can be put in quotes of either kind, and a formula of it alone has the text as its value. The
mark that stands between the quotes is written twice, so that neither the end of the string is found too
early nor a pair taken for two marks. All strings that are found in formulas are written in this way.
-/

namespace Spreadsheet

open Text Scanned Grammar

def quoted (q : Char) (v : String) : String :=
  String.ofList (quote q v.toList)

theorem spells_quoted {q : Char} (hq : isMark q = true) (v : String) :
    (Lexeme.string (quoted q v)).Spells (quoted q v).toList :=
  (Lexeme.simple_quoted hq v.toList).1

/-- A string is written between two marks, with each of them inside written twice. -/
theorem Lexeme.Spells.exists_quoted {s : String} (h : (Lexeme.string s).Spells s.toList) :
    ∃ q v, isMark q = true ∧ quoted q v = s := by
  obtain ⟨-, q, text, hs, hq, hclosing⟩ := h.string
  obtain ⟨plain, rfl⟩ := exists_doubled_of_takeClosing? hclosing
  refine ⟨q, String.ofList plain, hq, ?_⟩
  have hquote : quote q plain = s.toList := hs.symm
  unfold quoted
  rw [String.toList_ofList, hquote, String.ofList_toList]

theorem parse_quoted {q : Char} (hq : isMark q = true) (v : String) :
    Formula.parse (quoted q v) = .ok (.literal (.text (quoted q v))) := by
  have hisQuoted : isQuoted (quoted q v).toList = true := by
    unfold quoted isQuoted
    rw [String.toList_ofList, unquoted?_quote hq]
    rfl
  -- A lexeme alone is a formula without calls, whatever stands between the marks.
  have hfits := Fits.operand (Lexeme.simple_quoted hq v.toList) rfl 0
  exact (Formula.parse_of_fits hfits (by decide)
    (.mk (.single (.single (.single (.atom (.string _))))) (.quoted hisQuoted))).1

/-- A text in quotes of either kind is a single token, and as a formula it comes to the text, whatever
the text looks like. The other way round, what stands in the quotes of a token makes up the same token
again when it is put in quotes. -/
theorem quoted_roundTrip :
    (∀ (q : Char) (v : String), isMark q = true →
      Token.scan (quoted q v) = .ok [⟨.string (quoted q v), 0⟩] ∧
      ∀ (g : Grid) (depth : Int), depth ≤ maxDepth →
        g.evaluateText depth (quoted q v) = .ok (.text v)) ∧
    ∀ (text : String) (ts : List Token) (s : String), Token.scan text = .ok ts →
      .string s ∈ lexemes ts →
      ∃ q v, isMark q = true ∧ s.toList.head? = some q ∧ unquoted? s.toList = some v.toList ∧
        quoted q v = s := by
  constructor
  · intro q v hq
    refine ⟨Token.scan_of_spells (spells_quoted hq v), fun g depth hdepth => ?_⟩
    rw [Grid.evaluateText_of_parse (parse_quoted hq v), Grid.evaluate_literal hdepth]
    show Except.ok (g.tokenWith _ (String.ofList (quote q v.toList))) = _
    rw [Grid.tokenWith_quote g _ hq, String.ofList_toList]
  · -- What stands in the text for the lexeme is the lexeme itself, so it has the form of a string.
    intro text ts s hscan hs
    have hlexed : Lexed (trim text.toList) (lexemes ts) :=
      Token.lexed_of_scanFrom (Nat.le_refl _) hscan
    obtain ⟨q, v, hq, rfl⟩ := (hlexed.spells_text _ hs).exists_quoted
    refine ⟨q, v, hq, ?_, ?_, rfl⟩
    · rw [quoted, String.toList_ofList]
      rfl
    · rw [quoted, String.toList_ofList]
      exact unquoted?_quote hq v.toList

/-- The text ends with a mark of the kind that it is put in, and the string in the call is one mark. -/
theorem quoted_roundTrip_marks :
    (Token.scan "'it''s \"A1\"'''" = .ok [⟨.string "'it''s \"A1\"'''", 0⟩] ∧
      (⟨[]⟩ : Grid).evaluateText 10 "'it''s \"A1\"'''" = .ok (.text "it's \"A1\"'")) ∧
    Token.scan "=SUM(\"\"\"\")" = .ok [⟨.operator (.comparison .equal), 0⟩,
      ⟨.identifier "SUM", 1⟩, ⟨.leftParen, 4⟩, ⟨.string "\"\"\"\"", 5⟩, ⟨.rightParen, 9⟩] ∧
    ∃ q v, isMark q = true ∧ "\"\"\"\"".toList.head? = some q ∧
      unquoted? "\"\"\"\"".toList = some v.toList ∧ quoted q v = "\"\"\"\"" := by
  have hscan : Token.scan "=SUM(\"\"\"\")" = .ok [⟨.operator (.comparison .equal), 0⟩,
      ⟨.identifier "SUM", 1⟩, ⟨.leftParen, 4⟩, ⟨.string "\"\"\"\"", 5⟩, ⟨.rightParen, 9⟩] := by rfl
  obtain ⟨hthere, hback⟩ := quoted_roundTrip
  obtain ⟨htoken, hvalue⟩ := hthere '\'' "it's \"A1\"'" rfl
  refine ⟨⟨htoken, hvalue ⟨[]⟩ 10 (by decide)⟩, hscan, ?_⟩
  exact hback _ _ _ hscan (by simp)

end Spreadsheet
