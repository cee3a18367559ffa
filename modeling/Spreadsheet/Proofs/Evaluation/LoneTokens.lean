import Spreadsheet.Proofs.Evaluation.Depth
import Spreadsheet.Proofs.Formula.Numerals
import Spreadsheet.Proofs.Formula.Quoting

/-!
# Values of lone tokens

What a token is, the parser tells by its kind and an argument by its characters. Both come to the same: a
formula of one token has the value that the token has as an argument one level deeper. For a number this
rests on the digits that can be read, since the scanner takes more signs for digits than a number has.
-/

namespace Spreadsheet

open Text

/-! ## Numbers -/

/-- A number of a formula that can be read counts as a number. -/
theorem isNumeral_of_number {s : String} {n : Number}
    (hnumber : Scanned.number s.toList = .ok ⟨.number s, s.toList, []⟩)
    (hread : Number.read s = .ok n) : isNumeral s.toList = true := by
  obtain ⟨numeral, hform, -, hspelling⟩ := Numeral.exists_of_number hnumber (isDecimal_of_read hread)
  have hs : s.toList = numeral.spelling := hspelling
  rw [hs]
  exact hform.isNumeral_spelling

namespace Grid

variable {g : Grid} {depth : Int}

/-- A number has the same value as a formula and as an argument. -/
theorem evaluate_of_number (hdepth : depth ≤ maxDepth) {s : String} {n : Number}
    (hnumber : Scanned.number s.toList = .ok ⟨.number s, s.toList, []⟩)
    (hread : Number.read s = .ok n) :
    g.evaluate depth (.literal (.number n)) = g.token (depth + 1) s := by
  rw [token_of_read (isReference_of_number hnumber) (isNumeral_of_number hnumber hread) hread]
  exact evaluate_call (f := .literal) hdepth rfl

/-! ## Words -/

theorem token_booleanWord (g : Grid) (depth : Int) (value : Bool) :
    g.token depth (booleanWord value) = .bool value := by
  cases value <;> rfl

/-- A word has the same value as a formula and as an argument. -/
theorem evaluate_of_asOperand (hdepth : depth ≤ maxDepth) {s : String}
    {tree : Content} (h : Formula.asOperand (.text s) = .ok tree) :
    g.evaluate depth tree = g.token (depth + 1) s := by
  simp only [Formula.asOperand] at h
  split at h
  · rename_i value hword
    cases h
    rw [ofBooleanWord?_eq_some_iff.mp hword, token_booleanWord]
    exact evaluate_call (f := .literal) hdepth rfl
  · split at h
    · cases h
      exact evaluate_literal hdepth s
    · cases h

/-! ## Lone tokens -/

/-- A formula of one token has the value of this token at the next depth, whatever the token is and
wherever it points. -/
theorem evaluateText_of_scan {text : String} {t : Token} {tree : Content}
    (hscan : Token.scan text = .ok [t]) (hparse : Formula.parse text = .ok tree) (g : Grid)
    {depth : Int} (hdepth : depth ≤ maxDepth) :
    g.evaluateText depth text = .ok (g.token (depth + 1) t.lexeme.text) := by
  rw [evaluateText_of_parse hparse]
  rw [Formula.parse_eq_ofTokens hscan] at hparse
  rcases Formula.ofTokens_lone_cases hparse with ⟨s, n, hlexeme, hread, rfl⟩ | ⟨-, hoperand⟩
  · have hspells := Token.spells_of_scan hscan t.lexeme List.mem_cons_self
    rw [hlexeme] at hspells ⊢
    have hnumber : Scanned.number s.toList = .ok ⟨.number s, s.toList, []⟩ := hspells.number.2
    rw [evaluate_of_number hdepth hnumber hread]
    rfl
  · rw [evaluate_of_asOperand hdepth hoperand]

def added : Grid :=
  ⟨[[.call (.aggregate .sum) [.integer 1, .integer 2]]]⟩

/-- The formula in the cell is one deeper than the reference, so at the greatest depth it is `nan`. A
reference that leaves the grid comes to a blank. -/
theorem evaluateText_of_scan_samples :
    added.evaluateText 9 "$A$1" = .ok (.integer 3) ∧
    added.evaluateText 10 "$A$1" = .ok .nan ∧
    added.evaluateText 10 "ABCD7" = .ok .blank ∧
    added.evaluateText 10 "'it''s'" = .ok (.text "it's") ∧
    added.evaluateText (-2) " tRUe" = .ok (.bool true) ∧
    added.evaluateText 10 "١٢" = .ok (.integer 12) := by
  have hquoted : Formula.parse "'it''s'" = .ok (.literal (.text "'it''s'")) :=
    parse_quoted (q := '\'') rfl "it's"
  refine ⟨?_, ?_, ?_, ?_, ?_, ?_⟩
  · exact evaluateText_of_scan (t := ⟨.identifier "$A$1", 0⟩) rfl rfl added (by decide)
  · exact evaluateText_of_scan (t := ⟨.identifier "$A$1", 0⟩) rfl rfl added (by decide)
  · exact evaluateText_of_scan (t := ⟨.identifier "ABCD7", 0⟩) rfl rfl added (by decide)
  · rw [evaluateText_of_scan (t := ⟨.string "'it''s'", 0⟩) rfl hquoted added (by decide)]
    exact congrArg Except.ok (tokenWith_quote added _ (q := '\'') rfl "it's".toList)
  · exact evaluateText_of_scan (t := ⟨.boolean true, 0⟩) rfl rfl added (by decide)
  · exact evaluateText_of_scan (t := ⟨.number "١٢", 0⟩) rfl rfl added (by decide)

end Grid

end Spreadsheet
