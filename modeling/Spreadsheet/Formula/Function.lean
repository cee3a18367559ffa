/-!
# The functions and operators of formulas

There are fifteen functions: seven work on any number of numbers, six compare two numbers, and two
choose and quote. Each of the ten operators stands for one of the functions.
-/

namespace Spreadsheet

inductive Aggregate where
  | sum
  | subtract
  | multiply
  | divide
  | average
  | maximum
  | minimum
  deriving DecidableEq, Repr

inductive Comparison where
  | less
  | greater
  | lessOrEqual
  | greaterOrEqual
  | equal
  | notEqual
  deriving DecidableEq, Repr

inductive Function where
  | aggregate (f : Aggregate)
  | choice
  | comparison (f : Comparison)
  | literal
  deriving DecidableEq, Repr

def Aggregate.name : Aggregate → String
  | .sum => "SUM"
  | .subtract => "SUBTRACT"
  | .multiply => "MULTIPLY"
  | .divide => "DIVIDE"
  | .average => "AVG"
  | .maximum => "MAX"
  | .minimum => "MIN"

def Comparison.name : Comparison → String
  | .less => "LESS_THAN"
  | .greater => "GREATER_THAN"
  | .lessOrEqual => "LESS_THAN_OR_EQUAL"
  | .greaterOrEqual => "GREATER_THAN_OR_EQUAL"
  | .equal => "EQUALS"
  | .notEqual => "NOT_EQUAL"

namespace Function

def name : Function → String
  | .aggregate f => f.name
  | .choice => "IF"
  | .comparison f => f.name
  | .literal => "LITERAL"

def all : List Function :=
  [.aggregate .sum, .aggregate .subtract, .aggregate .multiply, .aggregate .divide,
   .aggregate .average, .aggregate .maximum, .aggregate .minimum, .choice, .comparison .less,
   .comparison .greater, .comparison .lessOrEqual, .comparison .greaterOrEqual,
   .comparison .equal, .comparison .notEqual, .literal]

def ofName? (name : String) : Option Function :=
  all.find? fun f => f.name = name

theorem mem_all (f : Function) : f ∈ all := by
  rcases f with (_ | _ | _ | _ | _ | _ | _) | _ | (_ | _ | _ | _ | _ | _) | _ <;> simp [all]

theorem ofName?_name (f : Function) : ofName? f.name = some f := by
  rcases f with (_ | _ | _ | _ | _ | _ | _) | _ | (_ | _ | _ | _ | _ | _) | _ <;>
    simp [ofName?, all, name, Aggregate.name, Comparison.name]

theorem name_of_ofName? {name : String} {f : Function} (h : ofName? name = some f) :
    f.name = name := by
  simpa using List.find?_some h

end Function

inductive Arithmetic where
  | add
  | subtract
  | multiply
  | divide
  deriving DecidableEq, Repr

inductive Operator where
  | arithmetic (op : Arithmetic)
  | comparison (op : Comparison)
  deriving DecidableEq, Repr

namespace Arithmetic

def symbol : Arithmetic → String
  | .add => "+"
  | .subtract => "-"
  | .multiply => "*"
  | .divide => "/"

def function : Arithmetic → Aggregate
  | .add => .sum
  | .subtract => .subtract
  | .multiply => .multiply
  | .divide => .divide

def isAdditive : Arithmetic → Bool
  | .add | .subtract => true
  | .multiply | .divide => false

def isMultiplicative (op : Arithmetic) : Bool :=
  !op.isAdditive

end Arithmetic

def Comparison.symbol : Comparison → String
  | .less => "<"
  | .greater => ">"
  | .lessOrEqual => "<="
  | .greaterOrEqual => ">="
  | .equal => "="
  | .notEqual => "<>"

def Operator.symbol : Operator → String
  | .arithmetic op => op.symbol
  | .comparison op => op.symbol

end Spreadsheet
