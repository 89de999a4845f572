/-!
Sets of numbers, such as the code points of a class of characters, given by ranges in ascending order.
-/

namespace DocCoverage.Text

/-- Whether `n` lies in one of the ranges. The ranges ascend, so the search ends at the first range
that begins above `n`. -/
def inRanges (n : Nat) : List (Nat × Nat) → Bool
  | [] => false
  | (first, last) :: rest => first ≤ n && (n ≤ last || inRanges n rest)

end DocCoverage.Text
