import DocCoverage.Proofs.Json.Grammar
import DocCoverage.Overlay.Reader

/-! # A reader of JSON

A reader goes through a text character by character.  It keeps the lists and objects that
are open around it, the innermost first, and a state that says where in a token or
between which tokens the next character stands.  What it makes of the rest of a text
depends on these alone (`Reading.outcome`); a text is read when its end leaves nothing
open and one value complete (`read?`). -/

namespace DocCoverage
namespace Json

open Text (hexValue?)

/-! ## The reader -/

/-- A list or an object that is open, with what it holds so far. -/
inductive Frame
  /-- A list with its items so far. -/
  | list (before : List Json)
  /-- An object with its members so far and the name of the next one. -/
  | object (before : List (String × Json)) (name : String)

/-- What a string is: a value, or the name behind the given members of an object. -/
inductive Site
  | value
  | name (before : List (String × Json))

/-- How far a string has been read. -/
inductive Inside
  /-- Between characters. -/
  | plain
  /-- Behind a backslash. -/
  | escape
  /-- In a code unit with so many digits to come, the second of a pair if there is a first. -/
  | code (first : Option Nat) (digits value : Nat)
  /-- Behind the first code unit of a pair. -/
  | slash (first : Nat)
  /-- Behind the backslash of the second. -/
  | mark (first : Nat)

/-- Where the next character stands. Strings are kept with their last character first. -/
inductive State
  /-- Where a value must come. -/
  | value
  /-- Behind the bracket that opens a list. -/
  | opened
  /-- Where a name must come, or the end of the object if it has no members yet. -/
  | name (before : List (String × Json)) (empty : Bool)
  /-- Behind a name. -/
  | colon (before : List (String × Json)) (name : String)
  /-- In a word that stands for a value. -/
  | word (rest : List Char) (value : Json)
  /-- In a number. -/
  | number (n : Nat)
  /-- In a string. -/
  | string (site : Site) (inside : Inside) (read : List Char)
  /-- Behind a value. -/
  | done (value : Json)

/-- What is open, and where the next character stands. -/
structure Reading where
  stack : List Frame
  state : State

/-- A blank. -/
def isBlank (c : Char) : Bool := c == ' ' || c == '\t' || c == '\n' || c == '\r'

/-- The value of a decimal digit. -/
def digitValue? (c : Char) : Option Nat :=
  if '0' ≤ c ∧ c ≤ '9' then some (c.toNat - '0'.toNat) else none

/-- The character that a backslash and a letter stand for. -/
def escape? (e : Char) : Option Char := (letters.find? fun pair => pair.2 == e).map Prod.fst

namespace Reading

/-- Reads the first character of a value. -/
def stepValue (stack : List Frame) (c : Char) : Option Reading :=
  if c = 't' then some ⟨stack, .word ['r', 'u', 'e'] (.flag true)⟩
  else if c = 'f' then some ⟨stack, .word ['a', 'l', 's', 'e'] (.flag false)⟩
  else if c = '"' then some ⟨stack, .string .value .plain []⟩
  else if c = '[' then some ⟨stack, .opened⟩
  else if c = '\x7b' then some ⟨stack, .name [] true⟩
  else (digitValue? c).map fun d => ⟨stack, .number d⟩

/-- Reads a character behind a value: the next token belongs to what is open around it. -/
def stepDone (stack : List Frame) (value : Json) (c : Char) : Option Reading :=
  if isBlank c then some ⟨stack, .done value⟩
  else
    match stack with
    | [] => none
    | .list before :: outer =>
      if c = ',' then some ⟨.list (before ++ [value]) :: outer, .value⟩
      else if c = ']' then some ⟨outer, .done (.list (before ++ [value]))⟩
      else none
    | .object before name :: outer =>
      if c = ',' then some ⟨outer, .name (before ++ [(name, value)]) false⟩
      else if c = '\x7d' then some ⟨outer, .done (.object (before ++ [(name, value)]))⟩
      else none

/-- Ends a string. -/
def close (stack : List Frame) (site : Site) (read : List Char) : Reading :=
  match site with
  | .value => ⟨stack, .done (.text (String.ofList read.reverse))⟩
  | .name before => ⟨stack, .colon before (String.ofList read.reverse)⟩

/-- What a code unit gives: a character, alone or with the one before it, or the first half of one. -/
def unit? (stack : List Frame) (site : Site) (read : List Char) (first : Option Nat) (n : Nat) :
    Option Reading :=
  match first with
  | none =>
    if 0xd800 ≤ n ∧ n < 0xdc00 then some ⟨stack, .string site (.slash n) read⟩
    else (Overlay.charOf? n).map fun c => ⟨stack, .string site .plain (c :: read)⟩
  | some high =>
    if 0xdc00 ≤ n ∧ n < 0xe000 then
      (Overlay.charOf? (0x10000 + (high - 0xd800) * 0x400 + (n - 0xdc00))).map fun c =>
        ⟨stack, .string site .plain (c :: read)⟩
    else none

/-- Reads a character of a string. -/
def stepString (stack : List Frame) (site : Site) (read : List Char) (inside : Inside) (c : Char) :
    Option Reading :=
  match inside with
  | .plain =>
    if c = '"' then some (close stack site read)
    else if c = '\\' then some ⟨stack, .string site .escape read⟩
    else if 0x20 ≤ c.toNat then some ⟨stack, .string site .plain (c :: read)⟩
    else none
  | .escape =>
    if c = 'u' then some ⟨stack, .string site (.code none 4 0) read⟩
    else (escape? c).map fun c => ⟨stack, .string site .plain (c :: read)⟩
  | .code first digits value =>
    (hexValue? c).bind fun digit =>
      if digits = 1 then unit? stack site read first (value * 16 + digit)
      else some ⟨stack, .string site (.code first (digits - 1) (value * 16 + digit)) read⟩
  | .slash high => if c = '\\' then some ⟨stack, .string site (.mark high) read⟩ else none
  | .mark high => if c = 'u' then some ⟨stack, .string site (.code (some high) 4 0) read⟩ else none

/-- Reads one character. -/
def step (reading : Reading) (c : Char) : Option Reading :=
  let stack := reading.stack
  match reading.state with
  | .value => if isBlank c then some reading else stepValue stack c
  | .opened =>
    if isBlank c then some reading
    else if c = ']' then some ⟨stack, .done (.list [])⟩
    else stepValue (.list [] :: stack) c
  | .name before empty =>
    if isBlank c then some reading
    else if c = '"' then some ⟨stack, .string (.name before) .plain []⟩
    else if c = '\x7d' ∧ empty then some ⟨stack, .done (.object before)⟩
    else none
  | .colon before name =>
    if isBlank c then some reading
    else if c = ':' then some ⟨.object before name :: stack, .value⟩
    else none
  | .word [] _ => none
  | .word [last] value => if c = last then some ⟨stack, .done value⟩ else none
  | .word (d :: rest) value => if c = d then some ⟨stack, .word rest value⟩ else none
  | .number n =>
    match digitValue? c with
    | some d => if n = 0 then none else some ⟨stack, .number (n * 10 + d)⟩
    | none => stepDone stack (.count n) c
  | .string site inside read => stepString stack site read inside c
  | .done value => stepDone stack value c

/-- The value of a text that ends here: nothing is open, and a value is complete. -/
def finish (reading : Reading) : Option Json :=
  match reading.stack, reading.state with
  | [], .done value => some value
  | [], .number n => some (.count n)
  | _, _ => none

/-- What a text gives when it is read on from here to its end. -/
def outcome (reading : Reading) : List Char → Option Json
  | [] => reading.finish
  | c :: rest => (reading.step c).bind fun next => next.outcome rest

end Reading

/-- The value that a text is a document of. -/
def read? (text : String) : Option Json := (⟨[], .value⟩ : Reading).outcome text.toList

end Json
end DocCoverage
