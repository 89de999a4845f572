import DocCoverage.Text.Ranges
import DocCoverage.Text.WordTable

/-!
Word characters and the boundaries between words. A boundary lies where exactly one of two neighbours
is a word character; an end of the text counts as a neighbour that is none.
-/

namespace DocCoverage.Text

/-- A letter, mark, digit, connecting punctuation or joiner, in any script. -/
def isWord (c : Char) : Bool := inRanges c.toNat wordRanges

/-- Whether a neighbour is there and is a word character. -/
def isWordAt (neighbour : Option Char) : Bool := neighbour.any isWord

/-- A word begins or ends between the two neighbours. -/
def isBoundary (left right : Option Char) : Bool := isWordAt left != isWordAt right

@[simp]
theorem isWordAt_none : isWordAt none = false := rfl

@[simp]
theorem isWordAt_some (c : Char) : isWordAt (some c) = isWord c := rfl

end DocCoverage.Text
