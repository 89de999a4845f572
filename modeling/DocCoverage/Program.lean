import DocCoverage.Check
import DocCoverage.Inventory
import DocCoverage.Invocation
import DocCoverage.Log.Filter
import DocCoverage.Overlay.Load

/-!
The program: from arguments, a log setting and a disk to what is printed, the log and the exit code. A
run with a fault prints nothing but its log and the fault; what it prints otherwise does not depend on the
filter. The filter is set up before anything else is done, and a setting with a torn directive ends the run
there.
-/

namespace DocCoverage

/-- What a run relies on beside its disk: the engine that searches for patterns, and the words in which the
reader of overlays complains about a text. -/
structure Libraries where
  matcher : Matcher
  complaint : String → String

/-- What the program relies on when it runs. Of a text that is no overlay it says only that much. -/
def Libraries.standard : Libraries where
  matcher := .standard
  complaint _ := "TOML parse error"

/-- What a run prints, and the exit code that it ends with. -/
structure Printed where
  exit : Nat
  stdout : String
deriving DecidableEq, Repr

/-- An entry of the log of a run. -/
inductive LogEntry
  | line (text : String)
  | record (record : Record)
deriving DecidableEq, Repr

/-- All that a run leaves behind. -/
structure Outcome where
  exit : Nat
  stdout : String
  log : List LogEntry
deriving DecidableEq, Repr

/-- The record for programs. -/
def Record.json (r : Record) : Json :=
  .object [
    ("level", .text r.level.name),
    ("fields", .object (("message", .text r.message) :: r.fields.map fun (name, value) =>
      (name, match value with
        | .word text | .quoted text => .text text
        | .count n => .count n
        | .flag b => .flag b))),
    ("target", .text r.part.target)]

/-- The line of a log entry. -/
def LogEntry.text : LogEntry → String
  | line text => text
  | record r => r.json.compact

namespace Program

/-- The exit code of a run that found no gap. -/
def success : Nat := 0

/-- The exit code of a run that found gaps or ended with a fault. -/
def failure : Nat := 1

/-- The exit code of a run that broke down before its first step. -/
def crash : Nat := 101

/-- Checks the documents against the sources. -/
def check (matcher : Matcher) (disk : Disk) (layout : Layout) (json : Bool) (keepGoing : Bool) :
    Traced Printed := do
  Traced.report (.runBegun layout.root keepGoing)
  let documents ← Documents.load disk layout
  let report ← Check.run matcher disk layout documents (if keepGoing then .keepGoing else .failFast)
  return ⟨if report.passed then success else failure, report.printed json⟩

/-- A row of the inventory for programs. -/
def rowJson (row : Category × String) : Json :=
  .object [("category", .text row.1.id), ("identifier", .text row.2)]

/-- A row of the inventory for people. -/
def rowLine (row : Category × String) : String := row.1.label ++ "\t" ++ row.2

/-- Lists the identifiers that are expected in the documents. -/
def inventory (disk : Disk) (layout : Layout) (json : Bool) : Traced Printed := do
  let inventory ← Inventory.collect disk layout
  return ⟨success, Rows.printed inventory.rows json rowJson rowLine⟩

/-- Does what an invocation asks for, under a layout. -/
def perform (matcher : Matcher) (disk : Disk) (layout : Layout) (invocation : Invocation) :
    Traced Printed :=
  match invocation.command with
  | none => check matcher disk layout invocation.json false
  | some (.check keepGoing) => check matcher disk layout invocation.json keepGoing
  | some .inventory => inventory disk layout invocation.json

/-- Loads the layout of an invocation and does what it asks for. -/
def invoke (matcher : Matcher) (disk : Disk) (invocation : Invocation) : Traced Printed := do
  let layout ← Layout.load disk (.ofString invocation.repo) (invocation.config.map .ofString)
  perform matcher disk layout invocation

/-- The log entry of an event. -/
def entryOf (logJson : Bool) (event : Event) : LogEntry :=
  if logJson then .record event.record else .line event.record.line

/-- The log of a run: the events that the filter shows, and the fault if there is one. -/
def logOf {α : Type} (complaint : String → String) (logJson : Bool) (filter : Filter)
    (steps : Traced α) : List LogEntry :=
  (steps.events.filter filter.shows).map (entryOf logJson) ++
    match steps.result with
    | .ok _ => []
    | .error fault => (fault.report complaint).map .line

/-- Runs the program. Arguments that ask for no run, and a log setting that breaks it down, leave nothing
but an exit code. -/
def run (libraries : Libraries) (disk : Disk) (args : List String) (logSetting : Option String) :
    Outcome :=
  match Invocation.read args with
  | .error refusal => ⟨refusal.exit, "", []⟩
  | .ok invocation =>
    match Filter.ofSetting? logSetting with
    | none => ⟨crash, "", []⟩
    | some filter =>
      let steps := invoke libraries.matcher disk invocation
      let log := logOf libraries.complaint invocation.logJson filter steps
      match steps.result with
      | .ok printed => ⟨printed.exit, printed.stdout, log⟩
      | .error _ => ⟨failure, "", log⟩

end Program
end DocCoverage
