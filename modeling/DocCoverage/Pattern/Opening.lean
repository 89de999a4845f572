import DocCoverage.Pattern.Manner
import DocCoverage.Text.Alphanumeric

/-!
What an opening parenthesis begins. `(a)` is a group, `(?<name>a)` and `(?P<name>a)` a group with a name,
`(?x:a)` a group in a manner of its own; and `(?x)` is no group, it sets the manner from there on.
-/

namespace DocCoverage.Pattern

open Text

/-- What an opening parenthesis begins. -/
inductive Opening
  | group (manner : Manner) (name : Option (List Char))
  | flags (manner : Manner)
deriving DecidableEq, Repr

namespace Opening

/-- A name begins with a letter or an underscore; numbers and three other signs may follow. -/
def isName : List Char → Bool
  | [] => false
  | c :: rest =>
    (c == '_' || isLetter c) &&
      rest.all fun d => d == '_' || d == '.' || d == '[' || d == ']' || isAlphanumeric d

/-- Reads a name and the sign that ends it. -/
def named? (m : Manner) (s : List Char) : Option (Opening × List Char) :=
  let name := s.takeWhile (· != '>')
  match s.dropWhile (· != '>') with
  | '>' :: rest => if isName name then some (.group m (some name), rest) else none
  | _ => none

/-- Reads flags and the sign that ends them. Flags that are no group's must not be empty. -/
def flagged? (m : Manner) (s : List Char) : Option (Opening × List Char) :=
  let inFlags := fun c : Char => c != ':' && c != ')'
  let flags := s.takeWhile inFlags
  if areFlags flags then
    match s.dropWhile inFlags with
    | ':' :: rest => some (.group (m.under flags) none, rest)
    | ')' :: rest => if flags = [] then none else some (.flags (m.under flags), rest)
    | _ => none
  else none

/-- Reads what an opening parenthesis begins, behind it. -/
def read? (m : Manner) (s : List Char) : Option (Opening × List Char) :=
  match m.skip s with
  | '?' :: 'P' :: '<' :: rest => named? m rest
  | '?' :: '<' :: rest => named? m rest
  | '?' :: rest => flagged? m rest
  | rest => some (.group m none, rest)

end Opening
end DocCoverage.Pattern
