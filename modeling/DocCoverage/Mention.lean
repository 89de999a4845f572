import DocCoverage.Text.Word

/-!
Mentions. A text mentions an identifier where the identifier stands in it, character for character,
with a word boundary at its first and at its last end. So `GetUser` is not mentioned by
`GetUserDetails`, and an identifier that begins with a character of no word, such as `.Hidden`, needs a
word right before it. Every place of the text is tried, also places that overlap.
-/

namespace DocCoverage

open Text

/-- The character left of what follows `read`, when `before` stands left of `read`. -/
def lastOr (before : Option Char) (read : List Char) : Option Char :=
  read.getLast?.or before

/-- `token` stands at the head of `rest` with a boundary at either end; `before` is the character left
of `rest`. -/
def standsBounded (token : List Char) (before : Option Char) (rest : List Char) : Bool :=
  token.isPrefixOf rest &&
    isBoundary before rest.head? &&
    isBoundary (lastOr before token) (rest.drop token.length).head?

/-- `token` stands with boundaries somewhere in `rest`, its end included; `before` is the character
left of `rest`. -/
def standsIn (token : List Char) (before : Option Char) : List Char → Bool
  | [] => standsBounded token before []
  | c :: rest => standsBounded token before (c :: rest) || standsIn token (some c) rest

/-- The text mentions the identifier. -/
def mentions (text identifier : String) : Bool :=
  standsIn identifier.toList none text.toList

end DocCoverage
