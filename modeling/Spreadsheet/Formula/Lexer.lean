import Spreadsheet.Formula.Token
import Spreadsheet.Text.Capital
import Spreadsheet.Text.Digit
import Spreadsheet.Text.Quoted
import Spreadsheet.Text.Space

/-!
# Cutting a formula into tokens

`Token.scan` reads one lexeme after the other and drops the white space between them. The first
character of a lexeme decides its kind, and a lexeme goes on as long as its kind allows.
-/

namespace Spreadsheet

open Text

inductive LexicalFault where
  | unexpectedCharacter (c : Char)
  | unterminatedString
  | noDigits
  | unexpectedPoint
  | missingExponent
  deriving DecidableEq, Repr

structure LexicalError where
  fault : LexicalFault
  position : Nat
  deriving DecidableEq, Repr

def LexicalError.message (e : LexicalError) : String :=
  let position := toString e.position
  match e.fault with
  | .unexpectedCharacter c =>
    "Unexpected character: " ++ String.singleton c ++ " at position " ++ position
  | .unterminatedString => "Unterminated string literal at position " ++ position
  | .noDigits => "Invalid number format at position " ++ position ++ ": no digits"
  | .unexpectedPoint =>
    "Invalid number format at position " ++ position ++ ": unexpected decimal point"
  | .missingExponent =>
    "Invalid scientific notation at position " ++ position ++ ": missing exponent"

structure Scanned where
  lexeme : Lexeme
  spelling : List Char
  rest : List Char
  deriving Repr

namespace Scanned

/-! ## Numbers -/

def takeMantissa (cs : List Char) : List Char × List Char :=
  let whole := cs.takeWhile isDigit
  match cs.dropWhile isDigit with
  | '.' :: rest => (whole ++ '.' :: rest.takeWhile isDigit, rest.dropWhile isDigit)
  | rest => (whole, rest)

def takeSign : List Char → List Char × List Char
  | [] => ([], [])
  | c :: cs => if c = '+' || c = '-' then ([c], cs) else ([], c :: cs)

def takeExponent : List Char → Except LexicalFault (List Char × List Char)
  | [] => .ok ([], [])
  | c :: cs =>
    if c = 'e' || c = 'E' then
      let (sign, rest) := takeSign cs
      if (rest.takeWhile isDigit).isEmpty then .error .missingExponent
      else .ok (c :: sign ++ rest.takeWhile isDigit, rest.dropWhile isDigit)
    else .ok ([], c :: cs)

def checkNoPoint (cs : List Char) : Except LexicalFault Unit :=
  if cs.head? = some '.' then .error .unexpectedPoint else .ok ()

/-- A number has at most one point, which stands before the exponent, and at least one digit before
the exponent. -/
def number (cs : List Char) : Except LexicalFault Scanned := do
  let (mantissa, rest) := takeMantissa cs
  checkNoPoint rest
  if !mantissa.any isDigit then throw .noDigits
  let (exponent, rest) ← takeExponent rest
  checkNoPoint rest
  let spelling := mantissa ++ exponent
  return ⟨.number (String.ofList spelling), spelling, rest⟩

/-! ## Names, strings and operators -/

def isNameStart (c : Char) : Bool :=
  isLetter c || c = '_' || c = '$'

def isNamePart (c : Char) : Bool :=
  isWord c || c = '_' || c = '$'

/-- A name is an identifier, unless it is a word for a truth value in any letter case. -/
def nameLexeme (spelling : List Char) : Lexeme :=
  match ofBooleanWord? (String.ofList (capitals spelling)) with
  | some value => .boolean value
  | none => .identifier (String.ofList spelling)

def name (cs : List Char) : Scanned :=
  let spelling := cs.takeWhile isNamePart
  ⟨nameLexeme spelling, spelling, cs.dropWhile isNamePart⟩

def string (cs : List Char) : Except LexicalFault Scanned :=
  match takeQuoted? cs with
  | some (spelling, rest) => .ok ⟨.string (String.ofList spelling), spelling, rest⟩
  | none => .error .unterminatedString

/-- The operators and punctuation marks by their spelling. Of two that start alike the longer one
comes first. -/
def symbols : List (List Char × Lexeme) :=
  [(['<', '='], .operator (.comparison .lessOrEqual)),
   (['<', '>'], .operator (.comparison .notEqual)),
   (['>', '='], .operator (.comparison .greaterOrEqual)),
   (['<'], .operator (.comparison .less)),
   (['>'], .operator (.comparison .greater)),
   (['='], .operator (.comparison .equal)),
   (['+'], .operator (.arithmetic .add)),
   (['-'], .operator (.arithmetic .subtract)),
   (['*'], .operator (.arithmetic .multiply)),
   (['/'], .operator (.arithmetic .divide)),
   (['('], .leftParen),
   ([')'], .rightParen),
   ([','], .comma)]

def symbol? (cs : List Char) : Option Scanned :=
  (symbols.find? fun s => s.1.isPrefixOf cs).map fun s => ⟨s.2, s.1, cs.drop s.1.length⟩

def ofFront (c : Char) (cs : List Char) : Except LexicalFault Scanned :=
  if isMark c then string (c :: cs)
  else if isDigit c || c = '.' then number (c :: cs)
  else if isNameStart c then .ok (name (c :: cs))
  else
    match symbol? (c :: cs) with
    | some s => .ok s
    | none => .error (.unexpectedCharacter c)

/-! ## Nothing is lost -/

theorem takeMantissa_append (cs : List Char) :
    (takeMantissa cs).1 ++ (takeMantissa cs).2 = cs := by
  unfold takeMantissa
  split
  · rename_i rest hrest
    have h := List.takeWhile_append_dropWhile (p := isDigit) (l := cs)
    rw [hrest] at h
    simp [List.takeWhile_append_dropWhile, h]
  · simp [List.takeWhile_append_dropWhile]

theorem takeSign_append (cs : List Char) : (takeSign cs).1 ++ (takeSign cs).2 = cs := by
  unfold takeSign
  split
  · rfl
  · split <;> rfl

theorem takeExponent_append {cs spelling rest : List Char}
    (h : takeExponent cs = .ok (spelling, rest)) : spelling ++ rest = cs := by
  unfold takeExponent at h
  split at h
  · cases h
    rfl
  · rename_i c cs
    split at h
    · have hsign := takeSign_append cs
      dsimp only at h
      split at h
      · cases h
      · cases h
        simp [List.append_assoc, List.takeWhile_append_dropWhile, hsign]
    · cases h
      rfl

theorem number_append {cs : List Char} {s : Scanned} (h : number cs = .ok s) :
    s.spelling ++ s.rest = cs := by
  have hmantissa := takeMantissa_append cs
  unfold number at h
  dsimp only [bind, Except.bind, throw, throwThe, MonadExceptOf.throw, pure, Except.pure] at h
  split at h
  · cases h
  · split at h
    · cases h
    · split at h
      · cases h
      · rename_i v hexponent
        split at h
        · cases h
        · cases h
          rw [List.append_assoc, takeExponent_append hexponent, hmantissa]

theorem name_append (cs : List Char) : (name cs).spelling ++ (name cs).rest = cs :=
  List.takeWhile_append_dropWhile

theorem string_append {cs : List Char} {s : Scanned} (h : string cs = .ok s) :
    s.spelling ++ s.rest = cs := by
  unfold string at h
  split at h
  · rename_i hquoted
    cases h
    exact takeQuoted?_append hquoted
  · cases h

theorem symbol?_append {cs : List Char} {s : Scanned} (h : symbol? cs = some s) :
    s.spelling ++ s.rest = cs := by
  obtain ⟨entry, hentry, rfl⟩ := Option.map_eq_some_iff.mp h
  have hstart := List.find?_some hentry
  obtain ⟨rest, hrest⟩ := List.isPrefixOf_iff_prefix.mp hstart
  simp [← hrest]

/-- The spelling of a lexeme and what follows it make up the text. -/
theorem ofFront_append {c : Char} {cs : List Char} {s : Scanned} (h : ofFront c cs = .ok s) :
    s.spelling ++ s.rest = c :: cs := by
  unfold ofFront at h
  split at h
  · exact string_append h
  · split at h
    · exact number_append h
    · split at h
      · cases h
        exact name_append _
      · split at h
        · rename_i hsymbol
          cases h
          exact symbol?_append hsymbol
        · cases h

end Scanned

namespace Token

/-- The tokens of a text that starts at a position. The first argument bounds the number of
characters that are looked at. -/
def scanFrom : Nat → (position : Nat) → List Char → Except LexicalError (List Token)
  | 0, _, _ => .ok []
  | _, _, [] => .ok []
  | n + 1, position, c :: cs =>
    if isSpace c then scanFrom n (position + 1) cs
    else
      match Scanned.ofFront c cs with
      | .error fault => .error ⟨fault, position⟩
      | .ok s =>
        (scanFrom n (position + s.spelling.length) s.rest).map (⟨s.lexeme, position⟩ :: ·)

def scanTrimmed (cs : List Char) : Except LexicalError (List Token) :=
  scanFrom cs.length 0 cs

def scan (text : String) : Except LexicalError (List Token) :=
  scanTrimmed (trim text.toList)

end Token

end Spreadsheet
