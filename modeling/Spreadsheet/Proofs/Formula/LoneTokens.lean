import Spreadsheet.Proofs.Formula.Completeness
import Spreadsheet.Proofs.Formula.Lexing
import Spreadsheet.Proofs.Formula.Words

/-!
# Formulas of one token

A token alone is a formula if it is an operand, and then no level of the grammar but the last has
anything to read. A number becomes a literal of what is read from it, and a word what it stands for as
an operand.
-/

namespace Spreadsheet

open Grammar

namespace Formula

variable {t : Token}

theorem ne_minus_of_isOperand (h : t.lexeme.isOperand = true) :
    t.lexeme ≠ .operator (.arithmetic .subtract) := by
  intro ht
  rw [ht] at h
  cases h

theorem withoutEquals_of_isOperand (h : t.lexeme.isOperand = true) (ts : List Token) :
    withoutEquals (t :: ts) = t :: ts := by
  obtain ⟨l, position⟩ := t
  cases l <;> first | rfl | cases h

theorem atom_lone {expr argument : Reader Content} {value : Content} {rest : List Token}
    (h : t.lexeme.isOperand = true) (hatom : atom expr argument [t] = .ok (value, rest)) :
    rest = [] := by
  obtain ⟨l, position⟩ := t
  cases l with
  | number s =>
    simp only [atom] at hatom
    split at hatom <;> cases hatom
    rfl
  | string s =>
    cases hatom
    rfl
  | boolean value =>
    cases hatom
    rfl
  | identifier name =>
    cases hatom
    rfl
  | _ => cases h

theorem expression_lone (h : t.lexeme.isOperand = true) (left : Nat) :
    expression (left + 8) [t] = atom (expression (left + 1)) (expression left) [t] := by
  have hhead : ∀ u ∈ [t].head?, u.lexeme ≠ .operator (.arithmetic .subtract) := by
    rintro _ ⟨⟩
    exact ne_minus_of_isOperand h
  show comparison (chain _ (chain _ (signed _ _))) [t] = _
  unfold comparison chain
  rw [signed_eq_atom hhead]
  cases hatom : atom (expression (left + 1)) (expression left) [t] with
  | error e => rfl
  | ok found =>
    obtain ⟨value, rest⟩ := found
    obtain rfl := atom_lone h hatom
    rfl

/-- An atom of one token does not need the readers for what stands in parentheses. -/
theorem atom_eq_of_isOperand (h : t.lexeme.isOperand = true) (expr argument : Reader Content) :
    atom expr argument [t] = atom (expression 0) (expression 0) [t] := by
  obtain ⟨l, position⟩ := t
  cases l <;> first | rfl | cases h

theorem ofTokens_lone (h : t.lexeme.isOperand = true) :
    ofTokens [t] =
      (atom (expression 0) (expression 0) [t] >>= fun found => asOperand found.1) := by
  unfold ofTokens
  rw [withoutEquals_of_isOperand h]
  show (expression (maxFrames - 8 + 8) [t] >>= _) = _
  rw [expression_lone h, atom_eq_of_isOperand h]
  cases hatom : atom (expression 0) (expression 0) [t] with
  | error e => rfl
  | ok found =>
    obtain ⟨value, rest⟩ := found
    obtain rfl := atom_lone h hatom
    show (asOperand value >>= _) = asOperand value
    cases asOperand value <;> rfl

/-- What is wrong with a lone number is wrong with the formula. -/
theorem ofTokens_number_error {s : String} {e : NumeralError} (h : Number.read s = .error e)
    (position : Nat) : ofTokens [⟨.number s, position⟩] = .error (.badNumber position e) := by
  rw [ofTokens_lone rfl]
  simp only [atom, h]
  rfl

theorem isOperand_of_ofTokens {tree : Content} (h : ofTokens [t] = .ok tree) :
    t.lexeme.isOperand = true := by
  obtain ⟨l, position⟩ := t
  cases l with
  | operator op =>
    -- A minus sign is in want of an operand, and behind an equals sign there is nothing.
    cases op with
    | arithmetic op => cases op <;> cases h
    | comparison op => cases op <;> cases h
  | leftParen => cases h
  | rightParen => cases h
  | comma => cases h
  | _ => rfl

/-- A formula of one token is a number that can be read or a word. -/
theorem ofTokens_lone_cases {tree : Content} (h : ofTokens [t] = .ok tree) :
    (∃ s n, t.lexeme = .number s ∧ Number.read s = .ok n ∧ tree = .literal (.number n)) ∨
      (t.lexeme.word? = some t.lexeme.text ∧ asOperand (.text t.lexeme.text) = .ok tree) := by
  have hoperand := isOperand_of_ofTokens h
  rw [ofTokens_lone hoperand] at h
  obtain ⟨l, position⟩ := t
  cases l with
  | number s =>
    simp only [atom] at h
    split at h
    · rename_i n hread
      cases h
      exact .inl ⟨s, n, rfl, hread, rfl⟩
    · cases h
  | string s => exact .inr ⟨rfl, h⟩
  | boolean value => exact .inr ⟨rfl, h⟩
  | identifier name => exact .inr ⟨rfl, h⟩
  | _ => cases hoperand

end Formula

end Spreadsheet
