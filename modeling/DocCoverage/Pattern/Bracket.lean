import DocCoverage.Pattern.Atom
import DocCoverage.Pattern.Depth

/-!
Brackets: sets of characters, written as their members between square brackets. A member is a character, a
range of characters, a set with a name, or a bracket again; and two rows of members may be joined by an
operator, which takes what they share (`&&`), what the second lacks (`--`), or what only one has (`~~`).
-/

namespace DocCoverage.Pattern

/-- A bracket as far as it has been read. -/
structure Bracket where
  /-- The depth of what stands before the last operator. -/
  before : Option Nat := none
  /-- The depths of the members behind it, the last first. -/
  members : List Nat := []
  /-- Nothing but minus signs has been read. They stand for themselves there, and so does a closing bracket
  that comes first of all. -/
  leading : Bool := true
deriving DecidableEq, Repr

namespace Bracket

/-- The bracket with one more member. -/
def add (b : Bracket) (depth : Nat) : Bracket :=
  { b with members := depth :: b.members, leading := false }

/-- The depth of the members that have been read, with those before the operators. -/
def depth (b : Bracket) : Nat :=
  match b.before with
  | none => inRow b.members
  | some before => max before (inRow b.members) + 1

/-- The bracket behind one more operator. -/
def join (b : Bracket) : Bracket := { before := some b.depth, leading := false }

end Bracket

/-- The named sets. -/
def setNames : List String :=
  ["alnum", "alpha", "ascii", "blank", "cntrl", "digit", "graph", "lower", "print", "punct", "space",
    "upper", "word", "xdigit"]

/-- Reads a named set behind its opening bracket, as in `[:alpha:]`, and says whether it stands for the
characters that are not in the set. -/
def namedSet? : List Char → Option (Bool × List Char)
  | ':' :: s =>
    let (negated, s) :=
      match s with
      | '^' :: rest => (true, rest)
      | _ => (false, s)
    match s.dropWhile (· != ':') with
    | ':' :: ']' :: rest =>
      if setNames.contains (String.ofList (s.takeWhile (· != ':'))) then some (negated, rest) else none
    | _ => none
  | _ => none

/-- What may be a member: a set, or a character, which among bytes must be one byte. -/
def Atom.isMember (m : Manner) : Atom → Bool
  | .char c => !m.bytes || c.toNat < 0x80
  | .set => true
  | .place => false

/-- Reads a member that stands alone, or one end of a range. -/
def end? (m : Manner) (c : Char) (rest : List Char) : Option (Atom × List Char) :=
  if c = '\\' then escape? m rest else some (.char c, rest)

/-- What a minus sign is followed by. A number sign behind blanks is passed over like a blank, and the
remark is not. -/
def afterMinus (m : Manner) (s : List Char) : Option Char :=
  if m.loose then
    let next :=
      match s.dropWhile Text.isBlank with
      | '#' :: rest => rest.dropWhile Text.isBlank
      | rest => rest
    next.head?.or s.head?
  else s.head?

/-- Reads a member that begins with a character, and gives what follows it: the member is that character,
or the range from it to another one. A minus sign makes a range unless it ends the bracket or begins an
operator. -/
def member? (m : Manner) (c : Char) (rest : List Char) : Option (List Char) := do
  let (first, rest) ← end? m c rest
  match m.skip rest with
  | [] => none
  | '-' :: more =>
    if afterMinus m more = some ']' ∨ afterMinus m more = some '-' then
      if first.isMember m then some ('-' :: more) else none
    else
      let c :: more := m.skip more | none
      let (last, rest) ← end? m c more
      match first, last with
      | .char x, .char y => if x ≤ y ∧ first.isMember m ∧ last.isMember m then some rest else none
      | _, _ => none
  | rest => if first.isMember m then some rest else none

/-- The text inside a bracket, behind the sign that negates it. Among bytes there are no negated sets. -/
def inside? (m : Manner) (s : List Char) : Option (List Char) :=
  match m.skip s with
  | '^' :: rest => if m.bytes then none else some rest
  | rest => some rest

/-- Reads on in a bracket that stands in outer ones, and gives the depth of the outermost and what follows
it. Each step reads a character at least, so a text needs no more steps than it has characters. -/
def within? (m : Manner) : Nat → Bracket → List Bracket → List Char → Option (Nat × List Char)
  | 0, _, _, _ => none
  | steps + 1, b, outer, s =>
    match m.skip s with
    | [] => none
    | c :: rest =>
      if b.leading && (c == '-' || c == ']' && b.members.isEmpty) then
        within? m steps { b.add 0 with leading := c == '-' } outer rest
      else
        match c, rest with
        | ']', _ =>
          match outer with
          | [] => some (b.depth + 1, rest)
          | o :: outer => within? m steps (o.add (b.depth + 1)) outer rest
        | '[', _ =>
          match namedSet? rest with
          | some (negated, rest) =>
            if negated && m.bytes then none else within? m steps (b.add 0) outer rest
          | none => do
            let rest ← inside? m rest
            within? m steps {} (b :: outer) rest
        | '&', '&' :: rest | '-', '-' :: rest | '~', '~' :: rest =>
          within? m steps b.join outer rest
        | _, _ => do
          let rest ← member? m c rest
          within? m steps (b.add 0) outer rest

/-- Reads a bracket behind its opening sign, and gives its depth and what follows it. -/
def bracket? (m : Manner) (s : List Char) : Option (Nat × List Char) := do
  within? m s.length {} [] (← inside? m s)

end DocCoverage.Pattern
