import Spreadsheet.Formula.Parser

/-!
# The grammar of formulas

The grammar says which rows of lexemes are formulas and which tree each of them spells, without
regard to how they are read. A row is derived as a `Comparative`, an `Additive`, a `Multiplicative`,
a `Unary` or an `Atom`, from the weakest binding to the strongest, and `Arguments` is what stands
between the parentheses of a call.
-/

namespace Spreadsheet

open Text

namespace Grammar

/-- What a value becomes as an operand of a comparison and as a whole formula. A text that is no
truth value, no reference and not quoted becomes nothing. -/
inductive Operand : Content → Content → Prop
  | tree (name : Json) (args : List Content) : Operand (.formula name args) (.formula name args)
  | truth (value : Bool) : Operand (.text (booleanWord value)) (.literal (.bool value))
  | reference {s : String} : isReference s.toList = true → Operand (.text s) (.literal (.text s))
  | quoted {s : String} : isQuoted s.toList = true → Operand (.text s) (.literal (.text s))
  | value {v : Content} : v.isFormula = false → (∀ s, v ≠ .text s) → Operand v (.literal v)

mutual

inductive Comparative : List Lexeme → Content → Prop
  | single {ls : List Lexeme} {v : Content} : Additive ls v → Comparative ls v
  | pair {ls ms : List Lexeme} {a b a' b' : Content} (op : Comparison) :
      Additive ls a → Additive ms b → Operand a a' → Operand b b' →
      Comparative (ls ++ .operator (.comparison op) :: ms) (.call (.comparison op) [a', b'])

inductive Additive : List Lexeme → Content → Prop
  | single {ls : List Lexeme} {v : Content} : Multiplicative ls v → Additive ls v
  | step {ls ms : List Lexeme} {a b : Content} (op : Arithmetic) :
      op.isAdditive = true → Additive ls a → Multiplicative ms b →
      Additive (ls ++ .operator (.arithmetic op) :: ms) (.call (.aggregate op.function) [a, b])

inductive Multiplicative : List Lexeme → Content → Prop
  | single {ls : List Lexeme} {v : Content} : Unary ls v → Multiplicative ls v
  | step {ls ms : List Lexeme} {a b : Content} (op : Arithmetic) :
      op.isMultiplicative = true → Multiplicative ls a → Unary ms b →
      Multiplicative (ls ++ .operator (.arithmetic op) :: ms)
        (.call (.aggregate op.function) [a, b])

/-- An atom behind minus signs. A number takes the sign, all else is multiplied by -1. -/
inductive Unary : List Lexeme → Content → Prop
  | atom {ls : List Lexeme} {v : Content} : Atom ls v → Unary ls v
  | negative {ls : List Lexeme} {n : Number} :
      Unary ls (.number n) → Unary (.operator (.arithmetic .subtract) :: ls) (.number n.neg)
  | minus {ls : List Lexeme} {v : Content} :
      Unary ls v → v.isNumber = false →
      Unary (.operator (.arithmetic .subtract) :: ls)
        (.call (.aggregate .multiply) [.integer (-1), v])

inductive Atom : List Lexeme → Content → Prop
  | number {spelling : String} {n : Number} :
      Number.read spelling = .ok n → Atom [.number spelling] (.number n)
  | string (spelling : String) : Atom [.string spelling] (.text spelling)
  | boolean (value : Bool) : Atom [.boolean value] (.text (booleanWord value))
  | name (name : String) : Atom [.identifier name] (.text name)
  | group {ls : List Lexeme} {v : Content} :
      Comparative ls v → Atom (.leftParen :: ls ++ [.rightParen]) v
  | call {name : String} {f : Function} {ls : List Lexeme} {args : List Content} :
      f.name.toList = capitals name.toList → Arguments ls args →
      Atom (.identifier name :: .leftParen :: ls ++ [.rightParen]) (.call f args)

inductive Arguments : List Lexeme → List Content → Prop
  | none : Arguments [] []
  | some {ls : List Lexeme} {args : List Content} : Items ls args → Arguments ls args

inductive Items : List Lexeme → List Content → Prop
  | last {ls : List Lexeme} {v : Content} : Comparative ls v → Items ls [v]
  | more {ls ms : List Lexeme} {v : Content} {vs : List Content} :
      Comparative ls v → Items ms vs → Items (ls ++ .comma :: ms) (v :: vs)

end

inductive Whole : List Lexeme → Content → Prop
  | mk {ls : List Lexeme} {v tree : Content} : Comparative ls v → Operand v tree → Whole ls tree

/-! ## Frames of the stack -/

/-- Where a reader is in a row of lexemes, and which frames are in use there. -/
structure Place where
  /-- The frames around each open parenthesis, from the innermost on. -/
  outer : List Nat
  /-- The frames around the operand. -/
  base : Nat
  /-- The minus signs in front of the operand. -/
  signs : Nat
  /-- Whether the operand has been read, so that a minus sign subtracts from it and a parenthesis
  makes a call of it. -/
  behindOperand : Bool

namespace Place

def start : Place := ⟨[], 0, 0, false⟩

def frames (p : Place) : Nat :=
  p.base + p.signs

def behind (p : Place) : Lexeme → Place
  | .leftParen => ⟨p.base :: p.outer, p.frames + (if p.behindOperand then 8 else 7), 0, false⟩
  | .rightParen => ⟨p.outer.tail, p.outer.headD 0, 0, true⟩
  | .operator (.arithmetic .subtract) =>
    if p.behindOperand then { p with signs := 0, behindOperand := false }
    else { p with signs := p.signs + 1 }
  | .operator _ => { p with signs := 0, behindOperand := false }
  | .comma => { p with signs := 0, behindOperand := false }
  | _ => { p with behindOperand := true }

def after (p : Place) (ls : List Lexeme) : Place :=
  ls.foldl behind p

def most : Place → List Lexeme → Nat
  | p, [] => p.frames
  | p, l :: ls => max p.frames (most (p.behind l) ls)

end Place

/-- The frames that a formula may take up. The others are for the reader of the whole formula, for what
calls it and for what an atom calls. -/
def allowance : Nat := 900

/-- Whether the parentheses, calls and minus signs of a row together take up no more frames than there
are. -/
def WithinLimits (ls : List Lexeme) : Prop :=
  Place.start.most ls ≤ allowance

instance (ls : List Lexeme) : Decidable (WithinLimits ls) :=
  inferInstanceAs (Decidable (_ ≤ _))

end Grammar

end Spreadsheet
