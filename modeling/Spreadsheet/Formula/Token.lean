import Spreadsheet.Formula.Function

/-!
# Tokens

A formula is a sequence of tokens. A token is a lexeme and the position at which it starts, counted in
characters from the start of the trimmed text.
-/

namespace Spreadsheet

inductive Lexeme where
  | identifier (name : String)
  | number (spelling : String)
  | operator (op : Operator)
  | leftParen
  | rightParen
  | comma
  | boolean (value : Bool)
  /-- The text of a string with its quotes. -/
  | string (spelling : String)
  deriving DecidableEq, Repr

structure Token where
  lexeme : Lexeme
  position : Nat
  deriving DecidableEq, Repr

def booleanWord (value : Bool) : String :=
  if value then "TRUE" else "FALSE"

def ofBooleanWord? (word : String) : Option Bool :=
  if word = "TRUE" then some true else if word = "FALSE" then some false else none

def Lexeme.text : Lexeme → String
  | .identifier name => name
  | .number spelling => spelling
  | .operator op => op.symbol
  | .leftParen => "("
  | .rightParen => ")"
  | .comma => ","
  | .boolean value => booleanWord value
  | .string spelling => spelling

theorem ofBooleanWord?_booleanWord (value : Bool) :
    ofBooleanWord? (booleanWord value) = some value := by
  cases value <;> simp [booleanWord, ofBooleanWord?]

theorem ofBooleanWord?_eq_some_iff {word : String} {value : Bool} :
    ofBooleanWord? word = some value ↔ word = booleanWord value := by
  constructor
  · intro h
    unfold ofBooleanWord? at h
    split at h
    · rename_i hword
      cases h
      exact hword
    · split at h
      · rename_i hword
        cases h
        exact hword
      · cases h
  · rintro rfl
    exact ofBooleanWord?_booleanWord value

theorem ofBooleanWord?_eq_none_iff {word : String} :
    ofBooleanWord? word = none ↔ ∀ value, word ≠ booleanWord value := by
  simp only [Option.eq_none_iff_forall_ne_some, ne_eq, ofBooleanWord?_eq_some_iff]

end Spreadsheet
