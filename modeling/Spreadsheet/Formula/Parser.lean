import Spreadsheet.Content
import Spreadsheet.Formula.Lexer
import Spreadsheet.Number.Numeral
import Spreadsheet.Reference

/-!
# From tokens to trees

The grammar, from the weakest to the strongest binding:

* a comparison is a sum, or two sums with a comparison operator between them;
* a sum is a chain of products joined by `+` and `-`, and a product a chain of operands joined by `*`
  and `/`, both from the left;
* an operand is an atom behind any number of minus signs;
* an atom is a number, a string, a truth value, a name, a call or a comparison in parentheses.

Every reader at work takes up frames of one stack while those it calls are at work: an expression five
of them, an operand and an atom two, a minus sign one and a call one. Nested parentheses, calls and
minus signs draw on the same stack, and a formula for which it does not suffice is refused.
-/

namespace Spreadsheet

open Text

inductive ParseError where
  | lexical (e : LexicalError)
  | emptyFormula
  | unexpectedEnd
  | unexpectedEndInCall
  | unexpectedToken (t : Token)
  | expectedSeparator (t : Token)
  | expectedClosingParen
  | chainedComparison (position : Nat)
  | badNumber (position : Nat) (e : NumeralError)
  | notAnExpression (text : String)
  | unknownFunction (name : String)
  | nestedTooDeeply
  deriving DecidableEq, Repr

namespace ParseError

def message : ParseError → String
  | .lexical e => e.message
  | .emptyFormula => "Empty formula"
  | .unexpectedEnd => "Unexpected end of formula"
  | .unexpectedEndInCall => "Unexpected end of formula in function call"
  | .unexpectedToken t =>
    "Unexpected token: " ++ t.lexeme.text ++ " at position " ++ toString t.position
  | .expectedSeparator t => "Expected ',' or ')' in function call, got " ++ t.lexeme.text
  | .expectedClosingParen => "Expected closing parenthesis ')'"
  | .chainedComparison position => "Chained comparison at position " ++ toString position
  | .badNumber position e =>
    "Invalid number at position " ++ toString position ++ ": " ++ e.message
  | .notAnExpression text => "Invalid expression: " ++ text
  | .unknownFunction name => "Invalid function name: " ++ name
  | .nestedTooDeeply => "Formula is nested too deeply"

end ParseError

namespace Formula

abbrev Reader (α : Type) := List Token → Except ParseError (α × List Token)

/-! ## Operands -/

def negated : Content → Content
  | .number n => .number n.neg
  | operand => .call (.aggregate .multiply) [.integer (-1), operand]

/-- What stands for an operand in a tree. A number, a reference or a quoted text is put under a
literal, a word for a truth value becomes the truth value, and no other name is an operand. -/
def asOperand : Content → Except ParseError Content
  | .text s =>
    match ofBooleanWord? s with
    | some value => .ok (.literal (.bool value))
    | none =>
      if isReference s.toList || isQuoted s.toList then .ok (.literal (.text s))
      else .error (.notAnExpression s)
  | .formula name args => .ok (.formula name args)
  | value => .ok (.literal value)

def functionNamed? (name : String) : Option Function :=
  Function.ofName? (String.ofList (capitals name.toList))

/-! ## The levels of the grammar -/

/-- Reads the arguments of a call behind its opening parenthesis, at least one of them, and the
closing parenthesis. The first argument bounds their number. -/
def arguments (expression : Reader Content) : Nat → Reader (List Content)
  | 0, _ => .error .unexpectedEndInCall
  | n + 1, ts => do
    let (argument, ts) ← expression ts
    match ts with
    | [] => throw .unexpectedEndInCall
    | t :: rest =>
      match t.lexeme with
      | .rightParen => return ([argument], rest)
      | .comma =>
        let (others, rest) ← arguments expression n rest
        return (argument :: others, rest)
      | _ => throw (.expectedSeparator t)

def call (expression : Reader Content) (name : String) : Reader Content := fun ts =>
  match functionNamed? name with
  | none => .error (.unknownFunction name)
  | some f =>
    match ts with
    | ⟨.rightParen, _⟩ :: rest => .ok (.call f [], rest)
    | ts => (arguments expression (ts.length + 1) ts).map fun (args, rest) => (.call f args, rest)

/-- Reads what no operator binds. The arguments of a call are read with a reader of their own, since
the call takes up a frame. -/
def atom (expression argument : Reader Content) : Reader Content
  | [] => .error .unexpectedEnd
  | t :: rest =>
    match t.lexeme with
    | .number spelling =>
      match Number.read spelling with
      | .ok n => .ok (.number n, rest)
      | .error e => .error (.badNumber t.position e)
    | .string spelling => .ok (.text spelling, rest)
    | .boolean value => .ok (.text (booleanWord value), rest)
    | .identifier name =>
      match rest with
      | ⟨.leftParen, _⟩ :: rest => call argument name rest
      | rest => .ok (.text name, rest)
    | .leftParen => do
      let (value, rest) ← expression rest
      match rest with
      | ⟨.rightParen, _⟩ :: rest => return (value, rest)
      | _ => throw .expectedClosingParen
    | _ => .error (.unexpectedToken t)

def behindMinus? : List Token → Option (List Token)
  | ⟨.operator (.arithmetic .subtract), _⟩ :: rest => some rest
  | _ => none

def signed (operand atom : Reader Content) : Reader Content := fun ts =>
  match behindMinus? ts with
  | some rest => (operand rest).map fun (value, rest) => (negated value, rest)
  | none => atom ts

def chainFrom (level : Arithmetic → Bool) (operand : Reader Content) :
    Nat → (left : Content) → Reader Content
  | 0, left, ts => .ok (left, ts)
  | _, left, [] => .ok (left, [])
  | n + 1, left, t :: ts =>
    match t.lexeme with
    | .operator (.arithmetic op) =>
      if level op then do
        let (right, rest) ← operand ts
        chainFrom level operand n (.call (.aggregate op.function) [left, right]) rest
      else .ok (left, t :: ts)
    | _ => .ok (left, t :: ts)

def chain (level : Arithmetic → Bool) (operand : Reader Content) : Reader Content := fun ts => do
  let (left, rest) ← operand ts
  chainFrom level operand rest.length left rest

def comparison? : List Token → Option (Comparison × List Token)
  | ⟨.operator (.comparison op), _⟩ :: rest => some (op, rest)
  | _ => none

def checkNotChained : List Token → Except ParseError Unit
  | ⟨.operator (.comparison _), position⟩ :: _ => .error (.chainedComparison position)
  | _ => .ok ()

def comparison (sum : Reader Content) : Reader Content := fun ts => do
  let (left, rest) ← sum ts
  match comparison? rest with
  | none => return (left, rest)
  | some (op, rest) =>
    let (right, rest) ← sum rest
    let left ← asOperand left
    let right ← asOperand right
    checkNotChained rest
    return (.call (.comparison op) [left, right], rest)

def levels (operand : Reader Content) : Reader Content :=
  comparison (chain Arithmetic.isAdditive (chain Arithmetic.isMultiplicative operand))

mutual

/-- Reads an expression with so many frames left on the stack. -/
def expression : (frames : Nat) → Reader Content
  | frames + 5 => levels (operand frames)
  | _ => fun _ => .error .nestedTooDeeply

def operand : (frames : Nat) → Reader Content
  | frames + 3 =>
    signed (operand (frames + 2)) (atom (expression (frames + 1)) (expression frames))
  | _ => fun _ => .error .nestedTooDeeply

end

/-! ## Whole formulas -/

def withoutEquals : List Token → List Token
  | ⟨.operator (.comparison .equal), _⟩ :: rest => rest
  | ts => ts

def ofTokens (ts : List Token) : Except ParseError Content :=
  match withoutEquals ts with
  | [] => .error .emptyFormula
  | ts => do
    let (value, rest) ← expression maxFrames ts
    let tree ← asOperand value
    match rest with
    | [] => return tree
    | t :: _ => throw (.unexpectedToken t)

def parse (text : String) : Except ParseError Content :=
  match Token.scan text with
  | .ok ts => ofTokens ts
  | .error e => .error (.lexical e)

end Formula

end Spreadsheet
