/-
Sets of characters given by sorted ranges of code points.

* **`inRanges`** — membership; the search stops at the first range that starts beyond the code
  point.
-/

namespace PathQuery.Text

/-- Whether a code point lies in one of the given ranges, which are sorted and include both ends. -/
def inRanges (n : Nat) : List (Nat × Nat) → Bool
  | [] => false
  | (low, high) :: rest =>
    if n < low then false else if n ≤ high then true else inRanges n rest

end PathQuery.Text
