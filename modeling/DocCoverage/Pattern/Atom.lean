import DocCoverage.Pattern.Manner
import DocCoverage.Text.Hexadecimal

/-!
Atoms: the smallest parts of a pattern, and how they are written with a backslash.
-/

namespace DocCoverage.Pattern

open Text (hexValue?)

/-- What an atom stands for: a character, any character of a set, or a place between characters. -/
inductive Atom
  | char (c : Char)
  | set
  | place
deriving DecidableEq, Repr

/-- The number in so many hexadecimal digits, behind the digits that gave `value`. -/
def number? (m : Manner) : Nat → Nat → List Char → Option (Nat × List Char)
  | 0, value, s => some (value, s)
  | digits + 1, value, s =>
    match m.skip s with
    | [] => none
    | c :: rest => do
      let digit ← hexValue? c
      number? m digits (16 * value + digit) rest

/-- The character of a number with so many digits. Among bytes a number of two digits is a byte, and a byte
from 0x80 on is no character. -/
def numbered? (m : Manner) (digits : Nat) (s : List Char) : Option (Atom × List Char) := do
  let (n, rest) ← number? m digits 0 s
  if n.isValidChar ∧ ¬(m.bytes ∧ digits = 2 ∧ 0x80 ≤ n) then return (.char (Char.ofNat n), rest)
  else none

/-- The set of a general category that one letter names, in either case. -/
def category? (m : Manner) (s : List Char) : Option (Atom × List Char) :=
  match m.skip s with
  | [] => none
  | c :: rest =>
    if !m.bytes && ['C', 'L', 'M', 'N', 'P', 'S', 'Z'].contains c.toUpper then some (.set, rest)
    else none

/-- Reads an atom behind its backslash. A sign stands for itself, a letter for something that depends on
it. Among bytes there are no sets that hold more than one-byte characters; the ends of words are places
there alone. -/
def escape? (m : Manner) : List Char → Option (Atom × List Char)
  | [] => none
  | c :: rest =>
    match c with
    | 'x' => numbered? m 2 rest
    | 'u' => numbered? m 4 rest
    | 'U' => numbered? m 8 rest
    | 'p' | 'P' => category? m rest
    | 'd' | 's' | 'w' => some (.set, rest)
    | 'D' | 'S' | 'W' => if m.bytes then none else some (.set, rest)
    | 'A' | 'z' => some (.place, rest)
    | 'b' | 'B' | '<' | '>' => if m.bytes then some (.place, rest) else none
    | 'a' => some (.char '\x07', rest)
    | 't' => some (.char '\t', rest)
    | 'n' => some (.char '\n', rest)
    | 'v' => some (.char '\x0b', rest)
    | 'f' => some (.char '\x0c', rest)
    | 'r' => some (.char '\r', rest)
    | _ => if c.toNat < 0x80 && !c.isAlphanum then some (.char c, rest) else none

end DocCoverage.Pattern
