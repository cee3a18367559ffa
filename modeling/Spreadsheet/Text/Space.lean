import Spreadsheet.Text.Range

/-!
# White space

The characters that separate tokens and that are trimmed from the ends of a text: those of the
Unicode property `White_Space` and the four separators `U+001C` to `U+001F`.
-/

namespace Spreadsheet.Text

def spaceRanges : List (Nat × Nat) :=
  [(0x9, 0xd), (0x1c, 0x20), (0x85, 0x85), (0xa0, 0xa0), (0x1680, 0x1680), (0x2000, 0x200a),
   (0x2028, 0x2029), (0x202f, 0x202f), (0x205f, 0x205f), (0x3000, 0x3000)]

def isSpace (c : Char) : Bool :=
  inRanges c.toNat spaceRanges

def trimEnd (cs : List Char) : List Char :=
  (cs.reverse.dropWhile isSpace).reverse

def trim (cs : List Char) : List Char :=
  trimEnd (cs.dropWhile isSpace)

@[simp] theorem trim_nil : trim [] = [] := rfl

end Spreadsheet.Text
