import DocCoverage.Log.Event
import DocCoverage.Log.Value
import DocCoverage.Text.Alphanumeric
import DocCoverage.Text.Blank

/-!
Directives: what a filter admits, and where. A directive is written as a level (`info`), as a target,
which admits everything there (`a::b`), or as a target with a level (`a::b=debug`). What it asks of an
event beside its target stands in brackets behind the target, or alone: a span (`a::b[span]`), a field
(`[{name}]`), or both.

Blanks at the two ends of a directive are no part of its form, but they are part of its content. So where
its parts begin and end is found in the text without these blanks, and a part is what stands at the same
bytes of the text as it is written. `" info"` is therefore the target `" info"`, and `" a=off"` has the
target `" "` and the level `"=off"`, which is none. Blanks in front can move the end of a part into a
character, as in `"\u00a0a=off"`, and a part that is torn so cannot be taken out of the text.
-/

namespace DocCoverage

open Text

/-- What a directive asks of an event beside its target: nothing, a field of some name, or a context,
which is a span around the event or a value of a field, and which no event has. -/
inductive Demand
  | nothing
  | field (name : String)
  | context
deriving DecidableEq, Repr

/-- An event has what a demand asks for. The message of an event counts as one of its fields. -/
def Demand.isMet (r : Record) : Demand → Bool
  | nothing => true
  | field name => name == "message" || r.fields.any (·.1 == name)
  | context => false

/-- What is wrong with a directive: it has no form that can be read, or one of its parts begins or ends
inside a character. -/
inductive Directive.Flaw
  | unreadable
  | torn
deriving DecidableEq, Repr

/-- The empty target addresses all events. The detail is that of a level, or zero for none. -/
structure Directive where
  target : String
  demand : Demand := .nothing
  detail : Nat
deriving DecidableEq, Repr

namespace Directive

/-- The number that a text of digits, with or without a plus sign, stands for. -/
def number? (s : List Char) : Option Nat :=
  let digits :=
    match s with
    | '+' :: rest => rest
    | _ => s
  if digits = [] then none
  else digits.foldlM (fun n c =>
    if '0' ≤ c ∧ c ≤ '9' then some (n * 10 + (c.toNat - '0'.toNat)) else none) 0

/-- The detail of a level by its number, or by its name in letters of any case. -/
def detail? (s : List Char) : Option Nat :=
  match number? s with
  | some n => if n ≤ 5 then some n else none
  | none =>
    match String.ofList (s.map Char.toLower) with
    | "off" => some 0
    | "error" => some 1
    | "warn" => some 2
    | "info" => some 3
    | "debug" => some 4
    | "trace" => some 5
    | _ => none

/-- The detail of a directive that does not state one. -/
def fullDetail : Nat := Level.trace.detail

/-- The bytes that a text has. -/
def weight (s : List Char) : Nat := (encode (String.ofList s)).length

/-- The text between two places of the written one, which are counted in bytes. -/
def slice (written : List Char) (start stop : Nat) : Except Flaw String :=
  let bytes := encode (String.ofList written)
  match decode? (bytes.take start), decode? ((bytes.take stop).drop start) with
  | some _, some part => .ok part
  | _, _ => .error .torn

/-- The part of the written text at the bytes where, in the form of the directive, its end `first` stands,
without the end `last` of both. -/
def part (written form first last : List Char) : Except Flaw String :=
  slice written (weight form - weight first) (weight form - weight last)

/-- The rest of the written text from the byte on where, in the form of the directive, its end `first`
begins. -/
def rest (written form first : List Char) : Except Flaw String :=
  slice written (weight form - weight first) (weight written)

/-- A directive begins with a letter, a number or one of three signs, or with the bracket of a demand. -/
def begins (c : Char) : Bool :=
  isAlphanumeric c || c == '-' || c == ':' || c == '_' || c == '['

/-- Reads a test of a field: its name, or its name and behind an equals sign a value for it. What stands
behind a second equals sign is not read. -/
def readTest (written : String) : Except Flaw Demand :=
  match written.toList.dropWhile (· != '=') with
  | '=' :: value =>
    if Value.isReadable (value.takeWhile (· != '=')) then .ok .context else .error .unreadable
  | _ => if written = "" then .error .unreadable else .ok (.field written)

/-- Reads a demand behind its opening bracket, and gives what follows its closing one. A part is taken out
of the text as soon as its end is found. -/
def readDemand (written form inside : List Char) : Except Flaw (Demand × List Char) :=
  match inside.dropWhile fun c => c != ']' && c != '\x7b' with
  | ']' :: behind => do
    let _ ← part written form inside (']' :: behind)
    return (.context, behind)
  | '\x7b' :: field => do
    let span ← part written form inside ('\x7b' :: field)
    match field.dropWhile (· != '\x7d') with
    | '\x7d' :: closing =>
      let demand ← readTest (← part written form field ('\x7d' :: closing))
      match closing with
      | ']' :: behind => return (if span = "" then demand else .context, behind)
      | _ => throw .unreadable
    | _ => throw .unreadable
  | _ => throw .unreadable

/-- Reads the level at the end of a directive, where there is one. An equals sign alone states no
level. -/
def readLevel (written form : List Char) : List Char → Except Flaw Nat
  | [] => .ok fullDetail
  | '=' :: level => do
    let name ← rest written form level
    if name = "" then return fullDetail
    match detail? name.toList with
    | some detail => return detail
    | none => throw .unreadable
  | _ => .error .unreadable

/-- Reads a directive that is one name: of a level, or else of a target. -/
def named (written : List Char) : Directive :=
  match detail? written with
  | some detail => { target := "", detail := detail }
  | none => { target := String.ofList written, detail := fullDetail }

/-- Reads one directive. -/
def read (written : List Char) : Except Flaw Directive :=
  let form := trimBlanks written
  if form.head?.any begins then
    match form.dropWhile fun c => c != '=' && c != '[' with
    | [] => .ok (named written)
    | '[' :: inside => do
      let target ← part written form form ('[' :: inside)
      let (demand, behind) ← readDemand written form inside
      let detail ← readLevel written form behind
      return { target := target, demand := demand, detail := detail }
    | level => do
      let target ← part written form form level
      let detail ← readLevel written form level
      return { target := target, detail := detail }
  else .error .unreadable

/-- The directive addresses an event: the target of the event begins with its target, and its demand is
met. -/
def addresses (d : Directive) (r : Record) : Bool :=
  d.target.toList.isPrefixOf r.part.target.toList && d.demand.isMet r

/-- Of two directives that address one event, the second is at least as close to it: its target is longer,
or as long and its demand is greater, where demands for fields are ordered by name. -/
def yieldsTo (d e : Directive) : Bool :=
  d.target.length < e.target.length ||
    (d.target.length == e.target.length &&
      match d.demand, e.demand with
      | .field x, .field y => !decide (y < x)
      | .field _, _ => false
      | _, _ => true)

end Directive
end DocCoverage
