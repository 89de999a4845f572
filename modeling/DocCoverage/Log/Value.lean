import DocCoverage.Pattern.Reading

/-!
The values that a directive may name for a field: a number, or a pattern for the text of the value.
-/

namespace DocCoverage.Value

/-- The text without the sign at its head. -/
def unsigned : List Char → List Char
  | '+' :: rest => rest
  | '-' :: rest => rest
  | s => s

/-- Digits, at least one. -/
def areDigits (s : List Char) : Bool := !s.isEmpty && s.all Char.isDigit

/-- An exponent, or nothing. -/
def isExponent : List Char → Bool
  | [] => true
  | c :: s => (c == 'e' || c == 'E') && areDigits (unsigned s)

/-- Digits, with a point before, between or behind them or with none, and an exponent. -/
def isDecimal (s : List Char) : Bool :=
  let whole := s.takeWhile Char.isDigit
  match s.dropWhile Char.isDigit with
  | '.' :: rest =>
    areDigits (whole ++ rest.takeWhile Char.isDigit) && isExponent (rest.dropWhile Char.isDigit)
  | rest => areDigits whole && isExponent rest

/-- A number in decimal digits, or one that has a name, with a sign or without. -/
def isNumber (s : List Char) : Bool :=
  isDecimal (unsigned s) ||
    ["inf", "infinity", "nan"].contains (String.ofList ((unsigned s).map Char.toLower))

/-- The text can be compared with the value of a field. -/
def isReadable (s : List Char) : Bool := isNumber s || Pattern.isPattern s

end DocCoverage.Value
