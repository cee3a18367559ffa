/-!
# Sets of characters given by ranges

A class of characters is a list of ranges of code points in ascending order, both ends included.

The classes are those of Unicode 14. A later version has more letters, digits and printable characters,
which are none here.
-/

namespace Spreadsheet.Text

/-- Whether `n` lies in one of the ranges. The ranges ascend, so the search ends at the first
one that starts beyond `n`. -/
def inRanges (n : Nat) : List (Nat × Nat) → Bool
  | [] => false
  | (lo, hi) :: rest => if n < lo then false else if n ≤ hi then true else inRanges n rest

theorem inRanges_eq_true_of_mem_head {n lo hi : Nat} {rest : List (Nat × Nat)}
    (hlo : lo ≤ n) (hhi : n ≤ hi) : inRanges n ((lo, hi) :: rest) = true := by
  simp [inRanges, hhi, Nat.not_lt.mpr hlo]

end Spreadsheet.Text
