import Spreadsheet.Reference
import Spreadsheet.Text.Quoted

/-!
# Moving the references of a formula

When a formula is copied, its references move along by the distance between the two cells. The text
is cut into pieces, quoted texts and references among them. A reference moves by rows and columns,
an anchored row or column stays, and one that leaves the sheet becomes `#REF!`. All else is kept.
-/

namespace Spreadsheet

open Text

inductive Piece where
  | verbatim (text : List Char)
  | reference (r : Reference)
  deriving DecidableEq, Repr

def isNameChar (c : Char) : Bool :=
  c.isAlphanum || c = '_'

namespace Piece

def joinsBefore (c : Char) : Bool :=
  isNameChar c || c = '$'

def joinsAfter (c : Char) : Bool :=
  isNameChar c || c = '('

/-- Gives back digits from the end of a run until what follows no longer joins it. The run comes
reversed, and at least one digit has to stay. -/
def backOff : (reversed rest : List Char) → Option (List Char × List Char)
  | [], _ => none
  | d :: ds, rest =>
    if rest.head?.any joinsAfter then backOff ds (d :: rest)
    else some ((d :: ds).reverse, rest)

def takeReference? (cs : List Char) : Option (Reference × List Char) := do
  let (r, rest) ← Reference.take? cs
  let (digits, rest) ← backOff r.digits.reverse rest
  return ({ r with digits := digits }, rest)

/-- Of a text without a closing mark, all up to the first mark of the last pair. -/
def takeToLastPair? (q : Char) : List Char → Option (List Char × List Char)
  | [] => none
  | [_] => none
  | c :: d :: cs =>
    if c = q then
      match takeToLastPair? q cs with
      | some (text, rest) => some (c :: d :: text, rest)
      | none => some ([c], d :: cs)
    else (takeToLastPair? q (d :: cs)).map fun (text, rest) => (c :: text, rest)

/-- The quoted text at the front of a text and what follows it. If the closing mark is missing, the
quoted text ends inside the last pair of marks. -/
def takeLiteral? (cs : List Char) : Option (List Char × List Char) :=
  match takeQuoted? cs with
  | some found => some found
  | none =>
    match cs with
    | [] => none
    | q :: cs =>
      if isMark q then (takeToLastPair? q cs).map fun (text, rest) => (q :: text, rest) else none

def splitFrom : Nat → (previous : Option Char) → List Char → List Piece
  | 0, _, _ => []
  | _, _, [] => []
  | n + 1, previous, c :: cs =>
    match takeLiteral? (c :: cs) with
    | some (text, rest) => .verbatim text :: splitFrom n text.getLast? rest
    | none =>
      match if previous.any joinsBefore then none else takeReference? (c :: cs) with
      | some (r, rest) => .reference r :: splitFrom n r.digits.getLast? rest
      | none => .verbatim [c] :: splitFrom n (some c) cs

/-- The pieces of a text, each character outside quoted texts and references by itself. -/
def split (cs : List Char) : List Piece :=
  splitFrom cs.length none cs

def text : Piece → List Char
  | .verbatim text => text
  | .reference r => r.spelling

/-! ## The pieces make up the text -/

theorem backOff_append {reversed rest digits left : List Char}
    (h : backOff reversed rest = some (digits, left)) :
    digits ++ left = reversed.reverse ++ rest := by
  -- A digit that is given back moves from the run to the rest.
  induction reversed generalizing rest with
  | nil => simp [backOff] at h
  | cons d ds ih =>
    unfold backOff at h
    split at h
    · simp [ih h]
    · simp only [Option.some.injEq, Prod.mk.injEq] at h
      simp [← h.1, ← h.2]

theorem backOff_ne_nil {reversed rest digits left : List Char}
    (h : backOff reversed rest = some (digits, left)) : digits ≠ [] := by
  induction reversed generalizing rest with
  | nil => simp [backOff] at h
  | cons d ds ih =>
    unfold backOff at h
    split at h
    · exact ih h
    · simp only [Option.some.injEq, Prod.mk.injEq] at h
      simp [← h.1]

theorem takeReference?_append {cs rest : List Char} {r : Reference}
    (h : takeReference? cs = some (r, rest)) : r.spelling ++ rest = cs := by
  simp only [takeReference?, Option.bind_eq_bind, Option.bind_eq_some_iff, Prod.exists] at h
  obtain ⟨r', rest', htake, digits, left, hback, hr⟩ := h
  simp only [pure, Option.some.injEq, Prod.mk.injEq] at hr
  obtain ⟨rfl, rfl⟩ := hr
  have hall := Reference.take?_append htake
  have hdigits := backOff_append hback
  rw [List.reverse_reverse] at hdigits
  simp only [Reference.spelling, List.append_assoc] at hall ⊢
  rw [hdigits, hall]

theorem takeToLastPair?_append {q : Char} {cs text rest : List Char}
    (h : takeToLastPair? q cs = some (text, rest)) : text ++ rest = cs := by
  fun_induction takeToLastPair? q cs generalizing text rest with
  | case1 => simp at h
  | case2 => simp at h
  | case3 d cs text' rest' hpair ih =>
    simp only [Option.some.injEq, Prod.mk.injEq] at h
    obtain ⟨rfl, rfl⟩ := h
    simp [ih hpair]
  | case4 d cs hnone ih =>
    simp only [Option.some.injEq, Prod.mk.injEq] at h
    simp [← h.1, ← h.2]
  | case5 c d cs hc ih =>
    simp only [Option.map_eq_some_iff, Prod.mk.injEq, Prod.exists] at h
    obtain ⟨t, r, ht, rfl, rfl⟩ := h
    simp [ih ht]

theorem takeLiteral?_append {cs text rest : List Char}
    (h : takeLiteral? cs = some (text, rest)) : text ++ rest = cs := by
  unfold takeLiteral? at h
  split at h
  · rename_i found hfound
    cases h
    exact takeQuoted?_append hfound
  · split at h
    · simp at h
    · split at h
      · simp only [Option.map_eq_some_iff, Prod.mk.injEq, Prod.exists] at h
        obtain ⟨t, r, ht, rfl, rfl⟩ := h
        simp [takeToLastPair?_append ht]
      · simp at h

theorem takeLiteral?_ne_nil {cs text rest : List Char}
    (h : takeLiteral? cs = some (text, rest)) : text ≠ [] := by
  unfold takeLiteral? takeQuoted? at h
  cases cs with
  | nil => simp at h
  | cons q cs =>
    dsimp only at h
    split at h
    · rename_i found hfound
      cases h
      split at hfound
      · simp only [Option.map_eq_some_iff, Prod.mk.injEq, Prod.exists] at hfound
        obtain ⟨t, r, ht, rfl, rfl⟩ := hfound
        simp
      · simp at hfound
    · split at h
      · simp only [Option.map_eq_some_iff, Prod.mk.injEq, Prod.exists] at h
        obtain ⟨t, r, ht, rfl, rfl⟩ := h
        simp
      · simp at h

theorem takeReference?_spelling_ne_nil {cs rest : List Char} {r : Reference}
    (h : takeReference? cs = some (r, rest)) : r.spelling ≠ [] := by
  simp only [takeReference?, Option.bind_eq_bind, Option.bind_eq_some_iff, Prod.exists] at h
  obtain ⟨r', rest', htake, digits, left, hback, hr⟩ := h
  simp only [pure, Option.some.injEq, Prod.mk.injEq] at hr
  obtain ⟨rfl, rfl⟩ := hr
  simp [Reference.spelling, backOff_ne_nil hback]

theorem flatten_splitFrom (n : Nat) (previous : Option Char) (cs : List Char)
    (hlength : cs.length ≤ n) : ((splitFrom n previous cs).map text).flatten = cs := by
  -- Each piece is a front of the text, and the bound outlasts the rest.
  induction n generalizing previous cs with
  | zero => simp [splitFrom, List.eq_nil_of_length_eq_zero (Nat.le_zero.mp hlength)]
  | succ n ih =>
    cases cs with
    | nil => simp [splitFrom]
    | cons c cs =>
      unfold splitFrom
      split
      · rename_i literal rest hliteral
        have hall := takeLiteral?_append hliteral
        have hpos := List.length_pos_iff.mpr (takeLiteral?_ne_nil hliteral)
        have hsize := congrArg List.length hall
        simp only [List.length_append, List.length_cons] at hsize hlength
        simp [text, ih _ rest (by omega), hall]
      · split
        · rename_i r rest hreference
          split at hreference
          · simp at hreference
          · have hall := takeReference?_append hreference
            have hpos := List.length_pos_iff.mpr (takeReference?_spelling_ne_nil hreference)
            have hsize := congrArg List.length hall
            simp only [List.length_append, List.length_cons] at hsize hlength
            simp [text, ih _ rest (by omega), hall]
        · simp only [List.length_cons] at hlength
          simp [text, ih _ cs (by omega)]

/-- The pieces of a text make it up. -/
theorem flatten_split (cs : List Char) : ((split cs).map text).flatten = cs :=
  flatten_splitFrom cs.length none cs (Nat.le_refl _)

end Piece

inductive ShiftError where
  | rowTooLong
  deriving DecidableEq, Repr

def ShiftError.message : ShiftError → String
  | .rowTooLong => NumeralError.tooLongToWrite

def invalidReference : List Char := ['#', 'R', 'E', 'F', '!']

namespace Reference

def shifted (r : Reference) (rows columns : Int) : Except ShiftError (List Char) :=
  match r.address? with
  | none => .ok invalidReference
  | some a =>
    let row : Int := if a.rowAnchored then a.row else a.row + rows
    let column : Int := if a.columnAnchored then a.column.index else a.column.index + columns
    if row < 1 then .ok invalidReference
    else
      match Column.ofInt? column with
      | none => .ok invalidReference
      | some c =>
        match integerText? row with
        | none => .error .rowTooLong
        | some digits => .ok (spelling ⟨a.columnAnchored, c.label, a.rowAnchored, digits.toList⟩)

end Reference

def Piece.shifted (rows columns : Int) : Piece → Except ShiftError (List Char)
  | .verbatim text => .ok text
  | .reference r => r.shifted rows columns

def shiftReferences (text : String) (rows columns : Int) : Except ShiftError String := do
  let parts ← (Piece.split text.toList).mapM (Piece.shifted rows columns)
  return String.ofList parts.flatten

end Spreadsheet
