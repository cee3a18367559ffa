import Spreadsheet.Evaluation

/-!
# Evaluation step by step

A step that cannot be taken raises an error. An error has a class, and it ends all that is being worked
out, up to a handler for its class. Every tree has a handler for five classes and is `nan` behind it. A
cell outside the grid, a reference without an address and a numeral that is too long end no tree: the
token has a handler for them and comes to something else.

The steps are taken on a stack. A tree that is worked out takes up frames until it has a value, and so
does whatever is inside something that a message shows. Where no frame is left, an error is raised of a
class for which there is no handler.
-/

namespace Spreadsheet

open Text

/-! ## Errors and handlers -/

inductive ErrorClass where
  | evaluation
  | unknownName
  | arithmetic
  | type
  | value
  | index
  | stack
  deriving DecidableEq

inductive Raised where
  | wrongArity (f : Function) (required received : Nat)
  | notComparable (f : Comparison) (left right : String)
  | numberTooLarge
  | numberTooLong
  /-- A list or a table in place of a name cannot be looked up. -/
  | noKey (name : Json)
  | unknownFunction (name : String)
  | noColumn (e : ColumnError)
  | noNumber (e : NumeralError)
  | outside (index : Nat)
  | stackExhausted

namespace Raised

def errorClass : Raised → ErrorClass
  | .wrongArity _ _ _ => .evaluation
  | .notComparable _ _ _ => .evaluation
  | .numberTooLarge => .arithmetic
  | .numberTooLong => .value
  | .noKey _ => .type
  | .unknownFunction _ => .unknownName
  | .noColumn _ => .value
  | .noNumber _ => .value
  | .outside _ => .index
  | .stackExhausted => .stack

/-- The text of an error, which only the classes with texts of the program and of its numbers have. -/
def message? : Raised → Option String
  | .wrongArity f required received =>
    some (f.name ++ " function requires " ++ toString required ++ " arguments, received " ++
      toString received)
  | .notComparable f left right =>
    some (f.name ++ " can only compare numbers, got " ++ left ++ " and " ++ right)
  | .numberTooLong => some NumeralError.tooLongToWrite
  | .unknownFunction name => some ("Invalid function name: " ++ name)
  | .noColumn e => some e.message
  | .noNumber e => some e.message
  | .numberTooLarge | .noKey _ | .outside _ | .stackExhausted => none

def ofUnshown : Unshown → Raised
  | .numberTooLong => .numberTooLong
  | .nestedTooDeeply => .stackExhausted

def ofName : Except Unshown String → Raised
  | .ok name => .unknownFunction name
  | .error e => .ofUnshown e

end Raised

/-- What a fault raises with so many frames left. Two operands are shown, the left one first, before it
is raised that they are no numbers. -/
def Fault.raised (left : Nat) : Fault → Raised
  | .wrongArity f required received => .wrongArity f required received
  | .notComparable f a b =>
    match a.shown left, b.shown left with
    | .ok a, .ok b => .notComparable f a b
    | .ok _, .error e => .ofUnshown e
    | .error e, _ => .ofUnshown e
  | .numberTooLarge => .numberTooLarge

def treeClasses : List ErrorClass :=
  [.evaluation, .unknownName, .arithmetic, .type, .value]

abbrev Run := ReaderT Nat (Except Raised)

namespace Run

variable {α : Type}

def raise (e : Nat → Raised) : Run α :=
  fun left => .error (e left)

def inside (frames : Nat) (x : Run α) : Run α :=
  fun left => if left < frames then .error .stackExhausted else x (left - frames)

/-- Goes on with another value behind an error of one of the classes. Every other error stays
raised. -/
def catching (classes : List ErrorClass) (x : Run α) (otherwise : α) : Run α :=
  fun left =>
    match x left with
    | .ok a => .ok a
    | .error e => if e.errorClass ∈ classes then .ok otherwise else .error e

def member (xs : List α) (index : Nat) : Run α :=
  match xs[index]? with
  | some x => pure x
  | none => raise fun _ => .outside index

end Run

open Run

/-! ## Functions -/

def Json.nameText (left : Nat) : Json → Except Unshown String
  | .text s => .ok s
  | name => name.shown left

/-- The function that the name of a tree stands for. An unknown name is named in the error, if it can
be written. -/
def functionRun (name : Json) : Run Function :=
  match name with
  | .list _ | .table _ => raise fun _ => .noKey name
  | _ =>
    match functionOf? name with
    | some f => pure f
    | none => raise fun left => .ofName (name.nameText left)

/-- Works out arguments from the left, behind those with the values `seen`. A running aggregate takes
each value in at once, and it fails where the values so far have no result. -/
def Aggregate.gather (resolve : Content → Run Content) (f : Aggregate) :
    (seen args : List Content) → Run (List Content)
  | seen, [] => pure seen
  | seen, a :: args => do
    let v ← resolve a
    if f.isRunning && (f.compute (seen ++ [v])).isNone then raise Fault.numberTooLarge.raised
    else gather resolve f (seen ++ [v]) args

def Comparison.run (f : Comparison) (left right : Content) : Run Content :=
  match f.compute left right with
  | .ok value => pure (.bool value)
  | .error e => raise e.raised

/-- The frames between a tree with a function and an argument that it works out. -/
def Function.frames : Function → Nat
  | .aggregate .maximum | .aggregate .minimum => 4
  | .aggregate _ => 2
  | .choice => 1
  | .comparison _ => 3
  | .literal => 1

def Function.run (resolve : Content → Run Content) (f : Function) (args : List Content) :
    Run Content :=
  let work (a : Content) : Run Content := inside f.frames (resolve a)
  match f, args with
  | .aggregate f, args => do
    let values ← f.gather work [] args
    match f.compute values with
    | some n => pure (.number n)
    | none => raise Fault.numberTooLarge.raised
  | .choice, [condition, consequent, alternative] => do
    match ← work condition with
    | .bool true => work consequent
    | .bool false => work alternative
    | _ => pure .nan
  | .choice, args => raise (Fault.wrongArity .choice 3 args.length).raised
  | .comparison f, [left, right] => do
    let v ← work left
    let w ← work right
    inside 2 (f.run v w)
  | .comparison f, args => raise (Fault.wrongArity (.comparison f) 2 args.length).raised
  | .literal, [] => pure .nan
  | .literal, value :: _ => if value.isFormula then pure .nan else work value

/-! ## References and other tokens -/

namespace Reference

def columnRun (r : Reference) : Run Column :=
  match Column.ofLabel? r.letters with
  | some column => pure column
  | none => raise fun _ => .noColumn (.noLabel (String.ofList r.letters))

def rowRun (r : Reference) : Run Nat :=
  if maxDigits < r.digits.length then raise fun _ => .noNumber (.tooManyDigits r.digits.length)
  else pure (decimalValue r.digits)

def addressRun (r : Reference) : Run (Option Address) :=
  catching [.value] (do
    let column ← r.columnRun
    let row ← r.rowRun
    return some ⟨row, column, r.rowAnchored, r.columnAnchored⟩) none

end Reference

namespace Content

def valueRun (run : Json → List Content → Run Content) : Content → Run Content
  | .formula name args => run name args
  | c => pure c

end Content

namespace Grid

def contentRun (g : Grid) (a : Address) : Run Content :=
  match a.row with
  | 0 => pure .blank
  | row + 1 => do
    let cell ← catching [.index] (do
      let cells ← member g.rows row
      member cells a.column.index) .blank
    return opened cell

def tokenRun (g : Grid) (run : Json → List Content → Run Content) (token : String) :
    Run Content :=
  inside 1 <|
    let cs := token.toList
    match Reference.ofSpelling? cs with
    | some r => do
      match ← r.addressRun with
      | some a => do
        let c ← g.contentRun a
        c.valueRun run
      | none => return .blank
    | none =>
      if isNumeral cs then
        catching [.value] (match Number.read token with
          | .ok n => pure (.number n)
          | .error e => raise fun _ => .noNumber e) .nan
      else
        match ofBooleanWord? token with
        | some value => return .bool value
        | none =>
          match unquoted? cs with
          | some inner => return .text (String.ofList inner)
          | none => return .text token

def resolveRun (g : Grid) (run : Json → List Content → Run Content) (argument : Content) :
    Run Content :=
  inside 1 <|
    match argument with
    | .text token => g.tokenRun run token
    | c => c.valueRun run

def runWithin (g : Grid) : (levels : Nat) → Json → List Content → Run Content
  | 0 => fun _ _ => inside 1 (pure .nan)
  | levels + 1 => fun name args =>
    inside 1 <| catching treeClasses (do
      let f ← functionRun name
      f.run (g.resolveRun (g.runWithin levels)) args) .nan

def run (g : Grid) (depth : Int) (tree : Content) : Run Content :=
  tree.valueRun (g.runWithin (levelsAt depth))

def runToken (g : Grid) (depth : Int) (text : String) : Run Content :=
  g.tokenRun (g.runWithin (levelsAt depth)) text

def runCall (g : Grid) (depth : Int) (f : Function) (args : List Content) : Run Content :=
  f.run (g.resolveRun (g.runWithin (levelsAt depth))) args

def runText (g : Grid) (depth : Int) (text : String) : Except ParseError (Run Content) :=
  (Formula.parse text).map (g.run depth)

end Grid

end Spreadsheet
