/-!
JSON values and their written form. A list or object stands on several lines, indented by two blanks a
level, unless it is empty. In a text the quotation mark, the backslash and the control characters are
escaped and nothing else is.
-/

namespace DocCoverage

/-- A JSON value. The members of an object keep their order. -/
inductive Json
  | flag (b : Bool)
  | count (n : Nat)
  | text (s : String)
  | list (items : List Json)
  | object (members : List (String × Json))

namespace Json

/-- The hexadecimal digit of a number below sixteen. -/
def hexDigit (n : Nat) : Char :=
  if n < 10 then Char.ofNat (0x30 + n) else Char.ofNat (0x61 + (n - 10))

/-- A character inside a text. -/
def escaped (c : Char) : List Char :=
  if c = '"' then ['\\', '"']
  else if c = '\\' then ['\\', '\\']
  else if c = '\n' then ['\\', 'n']
  else if c = '\r' then ['\\', 'r']
  else if c = '\t' then ['\\', 't']
  else if c = '\x08' then ['\\', 'b']
  else if c = '\x0c' then ['\\', 'f']
  else if c.toNat < 0x20 then ['\\', 'u', '0', '0', hexDigit (c.toNat / 16), hexDigit (c.toNat % 16)]
  else [c]

/-- A text between quotation marks. -/
def quoted (s : String) : List Char := '"' :: s.toList.flatMap escaped ++ ['"']

/-- The line break before what stands at a level. -/
def newLine (level : Nat) : List Char := '\n' :: List.replicate (2 * level) ' '

mutual

/-- A value that stands at a level. -/
def written (level : Nat) : Json → List Char
  | .flag b => (if b then "true" else "false").toList
  | .count n => Nat.toDigits 10 n
  | .text s => quoted s
  | .list [] => ['[', ']']
  | .list (item :: rest) =>
    '[' :: newLine (level + 1) ++ written (level + 1) item ++ writtenItems (level + 1) rest ++
      newLine level ++ [']']
  | .object [] => ['\x7b', '\x7d']
  | .object ((name, value) :: rest) =>
    '\x7b' :: newLine (level + 1) ++ quoted name ++ ':' :: ' ' :: written (level + 1) value ++
      writtenMembers (level + 1) rest ++ newLine level ++ ['\x7d']

/-- The items of a list behind its first one. -/
def writtenItems (level : Nat) : List Json → List Char
  | [] => []
  | item :: rest => ',' :: newLine level ++ written level item ++ writtenItems level rest

/-- The members of an object behind its first one. -/
def writtenMembers (level : Nat) : List (String × Json) → List Char
  | [] => []
  | (name, value) :: rest =>
    ',' :: newLine level ++ quoted name ++ ':' :: ' ' :: written level value ++
      writtenMembers level rest

end

/-- A value on lines of its own. -/
def pretty (value : Json) : String := String.ofList (written 0 value ++ ['\n'])

mutual

/-- A value on one line without blanks. -/
def dense : Json → List Char
  | .flag b => (if b then "true" else "false").toList
  | .count n => Nat.toDigits 10 n
  | .text s => quoted s
  | .list [] => ['[', ']']
  | .list (item :: rest) => '[' :: dense item ++ denseItems rest ++ [']']
  | .object [] => ['\x7b', '\x7d']
  | .object ((name, value) :: rest) =>
    '\x7b' :: quoted name ++ ':' :: dense value ++ denseMembers rest ++ ['\x7d']

/-- The items of a list behind its first one, on one line. -/
def denseItems : List Json → List Char
  | [] => []
  | item :: rest => ',' :: dense item ++ denseItems rest

/-- The members of an object behind its first one, on one line. -/
def denseMembers : List (String × Json) → List Char
  | [] => []
  | (name, value) :: rest => ',' :: quoted name ++ ':' :: dense value ++ denseMembers rest

end

/-- A value on one line. -/
def compact (value : Json) : String := String.ofList (dense value)

/-- Wraps data for programs: whether all is well, and the data. -/
def envelope (ok : Bool) (data : Json) : Json := .object [("ok", .flag ok), ("data", data)]

end Json
end DocCoverage
