/-!
# Quoted text

A quoted text stands between two equal marks, `"` or `'`, and a mark inside it is written twice.
`quote` writes a text in this form, `unquoted?` reads it, and `takeQuoted?` finds where it ends inside
a longer text.
-/

namespace Spreadsheet.Text

def isMark (c : Char) : Bool :=
  c = '"' || c = '\''

def doubled (q : Char) : List Char → List Char
  | [] => []
  | c :: cs => if c = q then q :: q :: doubled q cs else c :: doubled q cs

def undoubled (q : Char) : List Char → List Char
  | [] => []
  | [c] => [c]
  | c :: d :: cs =>
    if c = q ∧ d = q then q :: undoubled q cs else c :: undoubled q (d :: cs)

def quote (q : Char) (cs : List Char) : List Char :=
  q :: doubled q cs ++ [q]

def unquoted? : List Char → Option (List Char)
  | [] => none
  | q :: cs =>
    if isMark q && cs.getLast? == some q then some (undoubled q cs.dropLast) else none

def isQuoted (cs : List Char) : Bool :=
  (unquoted? cs).isSome

/-- The rest of a quoted text behind its opening mark `q`, up to and with its closing mark: the
first one that is not followed by another. What follows comes second. -/
def takeClosing? (q : Char) : List Char → Option (List Char × List Char)
  | [] => none
  | [c] => if c = q then some ([c], []) else none
  | c :: d :: cs =>
    if c = q then
      if d = q then (takeClosing? q cs).map fun (text, rest) => (c :: d :: text, rest)
      else some ([c], d :: cs)
    else (takeClosing? q (d :: cs)).map fun (text, rest) => (c :: text, rest)

def takeQuoted? : List Char → Option (List Char × List Char)
  | [] => none
  | q :: cs =>
    if isMark q then (takeClosing? q cs).map fun (text, rest) => (q :: text, rest) else none

theorem undoubled_doubled (q : Char) (cs : List Char) : undoubled q (doubled q cs) = cs := by
  -- A mark becomes a pair, which becomes one mark again. Every other character stays, whatever
  -- follows it.
  induction cs with
  | nil => rfl
  | cons c cs ih =>
    by_cases h : c = q
    · simp [doubled, undoubled, h, ih]
    · rw [doubled, if_neg h]
      cases hd : doubled q cs with
      | nil =>
        rw [hd] at ih
        simp [undoubled, ← ih]
      | cons d ds =>
        rw [hd] at ih
        simp [undoubled, h, ih]

/-- Reading a quoted text gives back what was quoted. -/
theorem unquoted?_quote {q : Char} (hq : isMark q = true) (cs : List Char) :
    unquoted? (quote q cs) = some cs := by
  simp [quote, unquoted?, hq, undoubled_doubled]

theorem takeClosing?_append {q : Char} {cs text rest : List Char}
    (h : takeClosing? q cs = some (text, rest)) : text ++ rest = cs := by
  fun_induction takeClosing? q cs generalizing text rest with
  | case1 => simp at h
  | case2 => simp_all
  | case3 => simp_all
  | case4 cs ih =>
    simp only [Option.map_eq_some_iff, Prod.mk.injEq, Prod.exists] at h
    obtain ⟨t, r, ht, rfl, rfl⟩ := h
    simp [ih ht]
  | case5 d cs hd =>
    simp only [Option.some.injEq, Prod.mk.injEq] at h
    simp [← h.1, ← h.2]
  | case6 c d cs hc ih =>
    simp only [Option.map_eq_some_iff, Prod.mk.injEq, Prod.exists] at h
    obtain ⟨t, r, ht, rfl, rfl⟩ := h
    simp [ih ht]

/-- A quoted text and what follows it make up the whole text. -/
theorem takeQuoted?_append {cs text rest : List Char} (h : takeQuoted? cs = some (text, rest)) :
    text ++ rest = cs := by
  cases cs with
  | nil => simp [takeQuoted?] at h
  | cons q cs =>
    simp only [takeQuoted?] at h
    split at h
    · simp only [Option.map_eq_some_iff, Prod.mk.injEq, Prod.exists] at h
      obtain ⟨t, r, ht, rfl, rfl⟩ := h
      simp [takeClosing?_append ht]
    · simp at h

end Spreadsheet.Text
