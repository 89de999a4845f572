import DocCoverage.Fault
import DocCoverage.Mention

/-!
Matchers. To look for an identifier is to build a pattern from it and to search for that. The engine that
searches refuses a pattern that is too large, and what it refuses ends the run with a fault. So an
identifier can be mentioned and yet not be found. Which patterns are too large is the engine's affair: a
matcher is given by what it refuses.
-/

namespace DocCoverage

/-- An engine that searches for patterns: the words in which it refuses the pattern of an identifier, if it
does. -/
structure Matcher where
  refusal? : String → Option String

namespace Matcher

/-- Looks for an identifier in a text. -/
def finds (matcher : Matcher) (text identifier : String) : Except Fault Bool :=
  match matcher.refusal? identifier with
  | some refusal => .error (.pattern refusal)
  | none => .ok (mentions text identifier)

/-- The identifiers that are not found in the text, in the given order and as often as given. They are
looked for one after the other, up to the first that is refused. -/
def missing (matcher : Matcher) (text : String) : List String → Except Fault (List String)
  | [] => .ok []
  | identifier :: rest => do
    let found ← matcher.finds text identifier
    let missing ← matcher.missing text rest
    return if found then missing else identifier :: missing

/-- An engine that refuses the identifiers of more than the given number of bytes. -/
def upTo (longest : Nat) : Matcher where
  refusal? identifier :=
    if identifier.utf8ByteSize ≤ longest then none
    else some "Compiled regex exceeds size limit of 10485760 bytes."

/-- The engine of the program. A pattern takes 32 bytes of its memory for each byte of the identifier, and
a few states more. -/
def standard : Matcher := upTo 327671

end Matcher
end DocCoverage
