import DocCoverage.Overlay.Key
import DocCoverage.Text.Hexadecimal

/-!
Reading an overlay. An overlay is the part of TOML that can give settings: lines of the form
`key = value` with comments and empty lines between them. A value is a string in any of the four
spellings, for the pinned commands a list of such strings. Tables, dotted keys and values of other kinds
are TOML too, but no overlay: no setting could take them.

The text is read character by character. What has been read so far is the settings given and a state
that says where in a line the next character stands.
-/

namespace DocCoverage.Overlay

open Text (hexValue?)

/-- The two marks that enclose a string. Only between double ones a backslash escapes. -/
inductive Quote
  | double
  | single
deriving DecidableEq, Repr

namespace Quote

/-- The character of a mark. -/
def mark : Quote → Char
  | double => '"'
  | single => '\''

/-- The mark that a character is. -/
def of? (c : Char) : Option Quote :=
  if c = '"' then some double else if c = '\'' then some single else none

end Quote

/-- Where a string stands: as a key, as the value of a setting, or in the list of commands behind the
given ones. -/
inductive Site
  | key
  | value (setting : TextSetting)
  | item (before : List String)
deriving DecidableEq, Repr

/-- How far a string has been read. -/
inductive Inside
  /-- One or two marks have been read and nothing else. -/
  | opened (marks : Nat)
  /-- In a string that ends on its line. -/
  | line
  /-- Right behind the three marks that open a string of several lines. -/
  | head
  /-- In a string of several lines, behind so many marks in a row. -/
  | lines (marks : Nat)
  /-- Behind a backslash. -/
  | escape (several : Bool)
  /-- In the number of a character, with so many digits to come. -/
  | code (several : Bool) (digits : Nat) (value : Nat)
  /-- Behind a backslash that joins lines; `broken` when the line has ended. -/
  | join (broken : Bool)
deriving DecidableEq, Repr

/-- Where the next character stands. Strings are kept with their last character first. -/
inductive State
  /-- At the start of a line. -/
  | lineStart
  /-- In a key without marks. -/
  | bareKey (read : List Char)
  /-- Behind a key. -/
  | afterKey (key : Key)
  /-- Behind the equals sign. -/
  | beforeValue (key : Key)
  /-- In the list of commands; `ready` when the next one may begin. -/
  | items (before : List String) (ready : Bool)
  /-- Behind a value. -/
  | lineEnd
  /-- In a comment; the next line goes on with the given state. -/
  | comment (next : State)
  /-- Behind a carriage return, which only a line feed may follow. -/
  | carriage (next : State)
  /-- In a string. -/
  | string (quote : Quote) (site : Site) (inside : Inside) (read : List Char)
deriving DecidableEq, Repr

/-- What has been read: the settings, in order, and where the next character stands. -/
structure Reading where
  settings : List Setting
  state : State
deriving DecidableEq, Repr

/-- A space or a tab. -/
def isGap (c : Char) : Bool := c == ' ' || c == '\t'

/-- A character of a key without marks. -/
def isBare (c : Char) : Bool :=
  ('a' ≤ c && c ≤ 'z') || ('A' ≤ c && c ≤ 'Z') || ('0' ≤ c && c ≤ '9') || c == '_' || c == '-'

/-- A character that may stand in a string or a comment as it is: any but the control characters, of
which the tab is allowed. -/
def isPlain (c : Char) : Bool := c == '\t' || (0x20 ≤ c.toNat && c.toNat != 0x7f)

/-- The character that a backslash and a letter stand for. -/
def escape? (c : Char) : Option Char :=
  match c with
  | 'b' => some '\x08'
  | 't' => some '\t'
  | 'n' => some '\n'
  | 'f' => some '\x0c'
  | 'r' => some '\r'
  | '"' => some '"'
  | '\\' => some '\\'
  | _ => none

/-- The character of a number. Surrogates and numbers above U+10FFFF are none. -/
def charOf? (n : Nat) : Option Char := if n.isValidChar then some (Char.ofNat n) else none

/-- What ends a line: a line break or a comment. The next line goes on with the given state. -/
def endLine? (next : State) (c : Char) : Option State :=
  if c = '\n' then some next
  else if c = '\r' then some (.carriage next)
  else if c = '#' then some (.comment next)
  else none

namespace Reading

/-- Gives a setting that has not been given yet. -/
def give (settings : List Setting) (setting : Setting) : Option Reading :=
  if (settings.map keyOf).contains (keyOf setting) then none
  else some ⟨settings ++ [setting], .lineEnd⟩

/-- Ends a string where it stands. -/
def close (settings : List Setting) (site : Site) (read : List Char) : Option Reading :=
  let text := String.ofList read.reverse
  match site with
  | .key => (Key.ofName? text).map fun key => ⟨settings, .afterKey key⟩
  | .value setting => give settings (.text setting text)
  | .item before => some ⟨settings, .items (before ++ [text]) false⟩

/-- Reads a character behind a key. -/
def stepAfterKey (settings : List Setting) (key : Key) (c : Char) : Option Reading :=
  if isGap c then some ⟨settings, .afterKey key⟩
  else if c = '=' then some ⟨settings, .beforeValue key⟩
  else none

/-- Reads a character behind the equals sign. -/
def stepBeforeValue (settings : List Setting) (key : Key) (c : Char) : Option Reading :=
  if isGap c then some ⟨settings, .beforeValue key⟩
  else
    match key with
    | .text setting =>
      (Quote.of? c).map fun quote => ⟨settings, .string quote (.value setting) (.opened 1) []⟩
    | .commands => if c = '[' then some ⟨settings, .items [] true⟩ else none

/-- Reads a character of the list of commands, between strings. -/
def stepItems (settings : List Setting) (before : List String) (ready : Bool) (c : Char) :
    Option Reading :=
  if isGap c then some ⟨settings, .items before ready⟩
  else if c = ']' then give settings (.commands before)
  else if c = ',' then if ready then none else some ⟨settings, .items before true⟩
  else
    match endLine? (.items before ready) c, Quote.of? c with
    | some next, _ => some ⟨settings, next⟩
    | none, some quote =>
      if ready then some ⟨settings, .string quote (.item before) (.opened 1) []⟩ else none
    | none, none => none

/-- Reads a character outside of strings. -/
def stepOutside (settings : List Setting) (state : State) (c : Char) : Option Reading :=
  match state with
  | .lineStart =>
    if isGap c then some ⟨settings, .lineStart⟩
    else if isBare c then some ⟨settings, .bareKey [c]⟩
    else
      match endLine? .lineStart c, Quote.of? c with
      | some next, _ => some ⟨settings, next⟩
      | none, some quote => some ⟨settings, .string quote .key .line []⟩
      | none, none => none
  | .bareKey read =>
    if isBare c then some ⟨settings, .bareKey (c :: read)⟩
    else (Key.ofName? (String.ofList read.reverse)).bind fun key => stepAfterKey settings key c
  | .afterKey key => stepAfterKey settings key c
  | .beforeValue key => stepBeforeValue settings key c
  | .items before ready => stepItems settings before ready c
  | .lineEnd =>
    if isGap c then some ⟨settings, .lineEnd⟩
    else (endLine? .lineStart c).map fun next => ⟨settings, next⟩
  | .comment next =>
    if isPlain c then some ⟨settings, .comment next⟩
    else (endLine? next c).map fun next => ⟨settings, next⟩
  | .carriage next => if c = '\n' then some ⟨settings, next⟩ else none
  | .string _ _ _ _ => none

/-- Reads a character in a string that ends on its line. -/
def stepLine (settings : List Setting) (quote : Quote) (site : Site) (read : List Char) (c : Char) :
    Option Reading :=
  if c = quote.mark then close settings site read
  else if c = '\\' ∧ quote = .double then some ⟨settings, .string quote site (.escape false) read⟩
  else if isPlain c then some ⟨settings, .string quote site .line (c :: read)⟩
  else none

/-- Reads a character in a string of several lines, behind so many marks in a row. Three marks close
it, and up to two more before them belong to it; fewer than three are part of it. -/
def stepLines (settings : List Setting) (quote : Quote) (site : Site) (read : List Char)
    (marks : Nat) (c : Char) : Option Reading :=
  if c = quote.mark then
    if marks < 5 then some ⟨settings, .string quote site (.lines (marks + 1)) read⟩ else none
  else if 3 ≤ marks then
    (close settings site (List.replicate (marks - 3) quote.mark ++ read)).bind fun closed =>
      stepOutside closed.settings closed.state c
  else
    let read := List.replicate marks quote.mark ++ read
    if c = '\\' ∧ quote = .double then some ⟨settings, .string quote site (.escape true) read⟩
    else if c = '\n' then some ⟨settings, .string quote site (.lines 0) (c :: read)⟩
    else if c = '\r' then
      some ⟨settings, .carriage (.string quote site (.lines 0) ('\n' :: read))⟩
    else if isPlain c then some ⟨settings, .string quote site (.lines 0) (c :: read)⟩
    else none

/-- Where a string goes on behind an escape. -/
def body (several : Bool) : Inside := if several then .lines 0 else .line

/-- Reads a character in a string. -/
def stepInside (settings : List Setting) (quote : Quote) (site : Site) (read : List Char)
    (inside : Inside) (c : Char) : Option Reading :=
  let go (inside : Inside) (read : List Char) : Option Reading :=
    some ⟨settings, .string quote site inside read⟩
  match inside with
  | .opened marks =>
    if marks = 1 then
      if c = quote.mark then go (.opened 2) read else stepLine settings quote site read c
    else if c = quote.mark then go .head read
    else (close settings site read).bind fun closed => stepOutside closed.settings closed.state c
  | .line => stepLine settings quote site read c
  | .head =>
    if c = '\n' then go (.lines 0) read
    else if c = '\r' then some ⟨settings, .carriage (.string quote site (.lines 0) read)⟩
    else stepLines settings quote site read 0 c
  | .lines marks => stepLines settings quote site read marks c
  | .escape several =>
    match escape? c with
    | some char => go (body several) (char :: read)
    | none =>
      if c = 'u' then go (.code several 4 0) read
      else if c = 'U' then go (.code several 8 0) read
      else if !several then none
      else if isGap c then go (.join false) read
      else if c = '\n' then go (.join true) read
      else if c = '\r' then some ⟨settings, .carriage (.string quote site (.join true) read)⟩
      else none
  | .code several digits value =>
    match hexValue? c with
    | none => none
    | some digit =>
      let value := value * 16 + digit
      if digits = 1 then (charOf? value).bind fun char => go (body several) (char :: read)
      else go (.code several (digits - 1) value) read
  | .join broken =>
    if isGap c then go (.join broken) read
    else if c = '\n' then go (.join true) read
    else if c = '\r' then some ⟨settings, .carriage (.string quote site (.join true) read)⟩
    else if broken then stepLines settings quote site read 0 c
    else none

/-- Reads one character. -/
def step (reading : Reading) (c : Char) : Option Reading :=
  match reading.state with
  | .string quote site inside read => stepInside reading.settings quote site read inside c
  | state => stepOutside reading.settings state c

/-- Reads a text from where it stands. -/
def run (reading : Reading) (text : List Char) : Option Reading :=
  text.foldlM step reading

/-- Ends a text as a line break would. A carriage return must not be the last character. -/
def finish (reading : Reading) : Option (List Setting) :=
  match reading.state with
  | .carriage _ => none
  | _ =>
    match reading.step '\n' with
    | some ⟨settings, .lineStart⟩ => some settings
    | _ => none

end Reading

/-- The text behind a byte order mark, if it begins with one. -/
def withoutMark : List Char → List Char
  | '\ufeff' :: rest => rest
  | text => text

/-- The settings that an overlay gives, in order. -/
def read? (text : String) : Option (List Setting) :=
  ((⟨[], .lineStart⟩ : Reading).run (withoutMark text.toList)).bind Reading.finish

end DocCoverage.Overlay
