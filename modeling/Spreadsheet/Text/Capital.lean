/-!
# Capital forms

Names of functions and the words `TRUE` and `FALSE` are read in any mix of capital and small
letters. They are written with the letters `A` to `Z` alone, so only characters whose capital form
holds one of these letters matter, and every other character stands for itself.
-/

namespace Spreadsheet.Text

/-- The characters outside the basic range whose capital form holds a letter from `A` to `Z`. -/
def capitalForms : List (Char × List Char) :=
  [('ß', ['S', 'S']), ('ı', ['I']), ('ŉ', ['ʼ', 'N']), ('ſ', ['S']), ('ǰ', ['J', '\u030c']),
   ('ẖ', ['H', '\u0331']), ('ẗ', ['T', '\u0308']), ('ẘ', ['W', '\u030a']),
   ('ẙ', ['Y', '\u030a']), ('ẚ', ['A', 'ʾ']), ('ﬀ', ['F', 'F']), ('ﬁ', ['F', 'I']),
   ('ﬂ', ['F', 'L']), ('ﬃ', ['F', 'F', 'I']), ('ﬄ', ['F', 'F', 'L']), ('ﬅ', ['S', 'T']),
   ('ﬆ', ['S', 'T'])]

def capital (c : Char) : List Char :=
  match capitalForms.lookup c with
  | some form => form
  | none => [c.toUpper]

def capitals (cs : List Char) : List Char :=
  cs.flatMap capital

@[simp] theorem capitals_nil : capitals [] = [] := rfl

@[simp] theorem capitals_cons (c : Char) (cs : List Char) :
    capitals (c :: cs) = capital c ++ capitals cs := rfl

end Spreadsheet.Text
