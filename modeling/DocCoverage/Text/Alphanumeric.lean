import DocCoverage.Text.LetterTable
import DocCoverage.Text.Ranges

/-!
Letters and numbers of any script.
-/

namespace DocCoverage.Text

/-- A letter, in any script. -/
def isLetter (c : Char) : Bool := inRanges c.toNat letterRanges

/-- A letter or a number, in any script. -/
def isAlphanumeric (c : Char) : Bool := isLetter c || inRanges c.toNat numberRanges

end DocCoverage.Text
