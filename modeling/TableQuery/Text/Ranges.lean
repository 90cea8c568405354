/-!
Sets of characters given by ranges of code points.
-/

namespace TableQuery.Text

/-- Whether a number lies in one of some ranges, both ends included. The ranges
are in ascending order, so the search ends at the first one that begins beyond
the number. -/
def inRanges : List (Nat × Nat) → Nat → Bool
  | [], _ => false
  | (first, last) :: rest, n => if n < first then false else n ≤ last || inRanges rest n

end TableQuery.Text
