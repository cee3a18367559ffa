import Spreadsheet.Formula.Parser
import Spreadsheet.Grid
import Spreadsheet.Number.Fold

/-!
# Evaluating formulas

A tree is evaluated over a grid at a depth, which counts the formulas around it: a tree among the
arguments of another lies one deeper, and so does the formula of a cell that an argument refers to.
Beyond the greatest depth every formula is `nan`, which bounds formulas that refer to themselves. A
fault inside a formula makes this formula `nan`, and the formulas around it go on with that.

An argument that is a text is a token: a reference stands for the content of its cell, a numeral for
its number, a quoted text for what is quoted, and any other text for itself.
-/

namespace Spreadsheet

open Text

def maxDepth : Int := 10

inductive Fault where
  | wrongArity (f : Function) (required received : Nat)
  | notComparable (f : Comparison) (left right : Content)
  | numberTooLarge

/-! ## Functions of values -/

def Content.operand (c : Content) : Number :=
  c.number?.getD .nan

/-- The result of an aggregate. The average leaves out what is no number, and for all others it
counts as `nan`. -/
def Aggregate.compute (f : Aggregate) (values : List Content) : Option Number :=
  match f with
  | .sum => Number.sum (values.map Content.operand)
  | .subtract => Number.difference (values.map Content.operand)
  | .multiply => Number.product (values.map Content.operand)
  | .divide => Number.quotient (values.map Content.operand)
  | .average => Number.mean (values.filterMap Content.number?)
  | .maximum => Number.maximum (values.map Content.operand)
  | .minimum => Number.minimum (values.map Content.operand)

/-- Whether an aggregate takes its arguments in one after the other, so that it can fail before it
has seen them all. -/
def Aggregate.isRunning : Aggregate → Bool
  | .sum | .subtract | .multiply | .divide => true
  | .average | .maximum | .minimum => false

/-- Whether a relation holds between numbers of the given order. `nan` has no order to any number,
so only `notEqual` holds of it. -/
def Comparison.holds : Comparison → Option Ordering → Bool
  | .less, order => order = some .lt
  | .greater, order => order = some .gt
  | .lessOrEqual, order => order = some .lt || order = some .eq
  | .greaterOrEqual, order => order = some .gt || order = some .eq
  | .equal, order => order = some .eq
  | .notEqual, order => order ≠ some .eq

def Comparison.compute (f : Comparison) (left right : Content) : Except Fault Bool :=
  match left, right with
  | .number a, .number b => .ok (f.holds (a.compare? b))
  | left, right => .error (.notComparable f left right)

/-- Applies a function, given how arguments are worked out. A choice works out the argument that it
chooses alone. -/
def Function.apply (resolve : Content → Content) : Function → List Content → Except Fault Content
  | .aggregate f, args =>
    match f.compute (args.map resolve) with
    | some n => .ok (.number n)
    | none => .error .numberTooLarge
  | .choice, args =>
    match args with
    | [condition, consequent, alternative] =>
      match resolve condition with
      | .bool true => .ok (resolve consequent)
      | .bool false => .ok (resolve alternative)
      | _ => .ok .nan
    | _ => .error (.wrongArity .choice 3 args.length)
  | .comparison f, args =>
    match args with
    | [left, right] => (f.compute (resolve left) (resolve right)).map .bool
    | _ => .error (.wrongArity (.comparison f) 2 args.length)
  | .literal, args =>
    match args with
    | [] => .ok .nan
    | value :: _ => .ok (if value.isFormula then .nan else resolve value)

/-! ## Trees over a grid -/

abbrev Evaluator := Json → List Content → Content

def Content.valueWith (eval : Evaluator) : Content → Content
  | .formula name args => eval name args
  | c => c

def functionOf? : Json → Option Function
  | .text name => Function.ofName? name
  | _ => none

namespace Grid

def tokenWith (g : Grid) (eval : Evaluator) (token : String) : Content :=
  let cs := token.toList
  if isReference cs then
    match Address.ofSpelling? cs with
    | some a => (g.content a).valueWith eval
    | none => .blank
  else if isNumeral cs then
    match Number.read token with
    | .ok n => .number n
    | .error _ => .nan
  else
    match ofBooleanWord? token with
    | some value => .bool value
    | none =>
      match unquoted? cs with
      | some inner => .text (String.ofList inner)
      | none => .text token

def resolveWith (g : Grid) (eval : Evaluator) : Content → Content
  | .text token => g.tokenWith eval token
  | c => c.valueWith eval

/-- Evaluates a tree in which at most `levels` formulas may lie inside one another, itself
included. -/
def evaluateWithin (g : Grid) : (levels : Nat) → Evaluator
  | 0 => fun _ _ => .nan
  | levels + 1 => fun name args =>
    match functionOf? name with
    | none => .nan
    | some f =>
      match f.apply (g.resolveWith (g.evaluateWithin levels)) args with
      | .ok value => value
      | .error _ => .nan

def levelsAt (depth : Int) : Nat :=
  (maxDepth + 1 - depth).toNat

def evaluate (g : Grid) (depth : Int) (tree : Content) : Content :=
  tree.valueWith (g.evaluateWithin (levelsAt depth))

def token (g : Grid) (depth : Int) (text : String) : Content :=
  g.tokenWith (g.evaluateWithin (levelsAt depth)) text

def resolve (g : Grid) (depth : Int) (argument : Content) : Content :=
  g.resolveWith (g.evaluateWithin (levelsAt depth)) argument

def apply (g : Grid) (depth : Int) (f : Function) (args : List Content) : Except Fault Content :=
  f.apply (g.resolve depth) args

def evaluateText (g : Grid) (depth : Int) (text : String) : Except ParseError Content :=
  (Formula.parse text).map (g.evaluate depth)

end Grid

end Spreadsheet
