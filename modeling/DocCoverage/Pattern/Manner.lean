import DocCoverage.Text.Blank

/-!
The manner in which a pattern is read. A pattern starts out in the plain manner and changes it by flags,
for one of its groups or for what is left of the group in which they stand.
-/

namespace DocCoverage.Pattern

open Text

/-- How the characters of a pattern are taken. -/
structure Manner where
  /-- Blanks and remarks only separate. -/
  loose : Bool := false
  /-- The pattern speaks of bytes, and of characters only as far as they are one byte each. -/
  bytes : Bool := false
deriving DecidableEq, Repr

/-- The text behind the blanks and remarks at its head. A remark begins with a number sign and takes the
rest of its line. -/
def behindRemarks (inRemark : Bool) : List Char → List Char
  | [] => []
  | c :: rest =>
    if inRemark then behindRemarks (c != '\n') rest
    else if c = '#' then behindRemarks true rest
    else if isBlank c then behindRemarks false rest
    else c :: rest

/-- The text from its next character on that does not only separate. -/
def Manner.skip (m : Manner) (s : List Char) : List Char :=
  if m.loose then behindRemarks false s else s

/-- Flags are letters, each at most once, and those behind a minus sign are taken back. -/
def areFlags (s : List Char) : Bool :=
  s.all (fun c => ['i', 'm', 's', 'U', 'u', 'R', 'x', '-'].contains c) && decide s.Nodup &&
    s.getLast? != some '-'

/-- The manner that flags ask for. The flag `x` asks for a loose one; the flag `u` asks for characters, and
for bytes where it is taken back. -/
def Manner.under (m : Manner) (flags : List Char) : Manner :=
  let given := flags.takeWhile (· != '-')
  let back := flags.dropWhile (· != '-')
  { loose := (m.loose || given.contains 'x') && !back.contains 'x'
    bytes := (m.bytes || back.contains 'u') && !given.contains 'u' }

end DocCoverage.Pattern
