/-!
How deep a pattern is. A single character is not deep at all; a repetition, a group and a bracket are one
deeper than what they hold, and so is a sequence of parts than the deepest of them.
-/

namespace DocCoverage.Pattern

/-- The depth of parts in a row, by their depths. A part that stands alone is as deep as it is. -/
def inRow : List Nat → Nat
  | [] => 0
  | [depth] => depth
  | depths => depths.foldl max 0 + 1

/-- The depth that no pattern may exceed. -/
def deepest : Nat := 250

end DocCoverage.Pattern
