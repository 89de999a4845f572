import DocCoverage.Pattern.Bracket
import DocCoverage.Pattern.Opening

/-!
Patterns: which texts are patterns at all. A pattern is a choice between branches (`a|b`), a branch is a
row of parts, and a part is an atom, a bracket or a group, repeated or not.

A pattern is read from its first character to its last, with the groups that are open at that place. It is
whole when only the pattern itself is still open at its end.

These are the patterns of a directive, in which no closing brace follows an opening one. So what is written
between braces elsewhere, as a number of repetitions, is never complete.
-/

namespace DocCoverage.Pattern

/-- A part of a branch: flags, which nothing can repeat, or something of some depth. -/
inductive Part
  | flags
  | piece (depth : Nat)
deriving DecidableEq, Repr

/-- The depth of a part. -/
def Part.depth : Part → Nat
  | flags => 0
  | piece depth => depth

/-- A group as far as it has been read, or the pattern itself. -/
structure Group where
  /-- The manner in which it goes on. -/
  manner : Manner := {}
  /-- The depths of the branches before the last one. -/
  branches : List Nat := []
  /-- The parts of the last branch, the last first. -/
  parts : List Part := []
deriving DecidableEq, Repr

namespace Group

/-- The group with one more part. -/
def add (g : Group) (part : Part) : Group := { g with parts := part :: g.parts }

/-- The depths of the branches. -/
def depths (g : Group) : List Nat := inRow (g.parts.map Part.depth) :: g.branches

/-- The group with a new branch. -/
def branch (g : Group) : Group := { g with branches := g.depths, parts := [] }

/-- The depth of the choice between the branches. -/
def depth (g : Group) : Nat := inRow g.depths

/-- The group with its last part repeated. -/
def again? (g : Group) : Option Group :=
  match g.parts with
  | .piece depth :: parts => some { g with parts := .piece (depth + 1) :: parts }
  | _ => none

end Group

/-- A pattern as far as it has been read: the innermost open group, those around it, and the names of all
groups. -/
structure Reading where
  inner : Group := {}
  outer : List Group := []
  names : List (List Char) := []
deriving DecidableEq, Repr

namespace Reading

/-- The reading with one more part in its innermost group. -/
def add (r : Reading) (depth : Nat) : Reading := { r with inner := r.inner.add (.piece depth) }

/-- The reading behind what a parenthesis opens. No two groups have one name. -/
def open? (r : Reading) : Opening → Option Reading
  | .flags manner => some { r with inner := { r.inner.add .flags with manner := manner } }
  | .group manner name =>
    if name.any r.names.contains then none
    else some {
      inner := { manner := manner }
      outer := r.inner :: r.outer
      names := name.toList ++ r.names }

/-- The reading behind the end of its innermost group. -/
def close? (r : Reading) : Option Reading :=
  match r.outer with
  | [] => none
  | g :: outer => some { r with inner := g.add (.piece (r.inner.depth + 1)), outer := outer }

/-- Reads one part or sign that begins with `c`, and gives what follows it. A question mark right behind a
sign of repetition belongs to it. An opening brace is never complete. A point is any character, so it has no
place among bytes. -/
def step? (r : Reading) (c : Char) (rest : List Char) : Option (Reading × List Char) :=
  match c with
  | '(' => do
    let (opening, rest) ← Opening.read? r.inner.manner rest
    return (← r.open? opening, rest)
  | ')' => do return (← r.close?, rest)
  | '|' => some ({ r with inner := r.inner.branch }, rest)
  | '[' => do
    let (depth, rest) ← bracket? r.inner.manner rest
    return (r.add depth, rest)
  | '*' | '+' | '?' => do
    let inner ← r.inner.again?
    return ({ r with inner := inner }, if rest.head? = some '?' then rest.tail else rest)
  | '\x7b' => none
  | '.' => if r.inner.manner.bytes then none else some (r.add 0, rest)
  | '\\' => do
    let (_, rest) ← escape? r.inner.manner rest
    return (r.add 0, rest)
  | _ => some (r.add 0, rest)

/-- Reads on to the end of a text. Each step reads a character at least, so a text needs no more steps than
it has characters, and one to find its end. -/
def finish? : Nat → Reading → List Char → Option Reading
  | 0, _, _ => none
  | steps + 1, r, s =>
    match r.inner.manner.skip s with
    | [] => some r
    | c :: rest => do
      let (r, rest) ← r.step? c rest
      finish? steps r rest

/-- The depth of a pattern that has been read to its end. -/
def depth? (r : Reading) : Option Nat := if r.outer = [] then some r.inner.depth else none

end Reading

/-- The text is a pattern. -/
def isPattern (s : List Char) : Bool :=
  ((Reading.finish? (s.length + 1) {} s).bind Reading.depth?).any (· ≤ deepest)

end DocCoverage.Pattern
