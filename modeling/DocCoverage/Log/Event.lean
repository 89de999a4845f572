import DocCoverage.Category

/-!
What a run reports while it goes on, and how an event is shown: by its level, the part of the program
that it comes from, a message, and named values.
-/

namespace DocCoverage

/-- How grave an event is, the gravest first. -/
inductive Level
  | error
  | warn
  | info
  | debug
  | trace
deriving DecidableEq, Repr

namespace Level

/-- How much a log shows at a level: the more, the less grave. -/
def detail : Level → Nat
  | error => 1
  | warn => 2
  | info => 3
  | debug => 4
  | trace => 5

/-- The name of a level. -/
def name : Level → String
  | error => "ERROR"
  | warn => "WARN"
  | info => "INFO"
  | debug => "DEBUG"
  | trace => "TRACE"

/-- The name of a level in a column of five. -/
def column : Level → String
  | error => "ERROR"
  | warn => " WARN"
  | info => " INFO"
  | debug => "DEBUG"
  | trace => "TRACE"

end Level

/-- The part of the program that an event comes from. -/
inductive Part
  | layout
  | documents
  | collectors
  | gate
  | runtime
deriving DecidableEq, Repr

/-- The name by which a log shows a part and a filter addresses it. -/
def Part.target : Part → String
  | layout => "docdrift::services::layout"
  | documents => "docdrift::services::documents"
  | collectors => "docdrift::services::collectors"
  | gate => "docdrift::services::gate"
  | runtime => "docdrift::commands::runtime"

/-- How far a scan goes. -/
inductive Depth
  | shallow
  | recursive
deriving DecidableEq, Repr

/-- The name of a depth in a log. -/
def Depth.name : Depth → String
  | .shallow => "Shallow"
  | .recursive => "Recursive"

/-- Something that a run reports. -/
inductive Event
  | noOverlay (root : Path)
  | overlayApplied (config : Path)
  | runBegun (root : Path) (keepGoing : Bool)
  | documentLoaded (path : Path) (bytes : Nat)
  | nameSkipped (path : Path)
  | noControllers (dir : Path)
  | policiesCollected (file : Path) (count : Nat)
  | commandsCollected (dir : Path) (depth : Depth) (count : Nat)
  | categoryEvaluated (category : Category) (checked missing : Nat)
  | runFinished (passed : Bool) (evaluated : Nat)
deriving DecidableEq, Repr

/-- The value of a field. A `word` stands bare and a `quoted` one in quotation marks. -/
inductive FieldValue
  | word (text : String)
  | quoted (text : String)
  | count (n : Nat)
  | flag (b : Bool)
deriving DecidableEq, Repr

/-- An event as a log shows it. -/
structure Record where
  level : Level
  part : Part
  message : String
  fields : List (String × FieldValue)
deriving DecidableEq, Repr

namespace Event

/-- How an event is shown. -/
def record : Event → Record
  | noOverlay root =>
    ⟨.debug, .layout, "no config overlay, using defaults",
      [("root", .word root.display)]⟩
  | overlayApplied config =>
    ⟨.debug, .layout, "applying config overlay",
      [("config", .word config.display)]⟩
  | runBegun root keepGoing =>
    ⟨.info, .runtime, "running doc drift checks",
      [("repo", .word root.display), ("keep_going", .flag keepGoing)]⟩
  | documentLoaded path bytes =>
    ⟨.debug, .documents, "loaded document",
      [("doc", .word path.display), ("bytes", .count bytes)]⟩
  | nameSkipped path =>
    ⟨.debug, .collectors, "skipping non-utf8 file name",
      [("path", .word path.display)]⟩
  | noControllers dir =>
    ⟨.warn, .collectors, "no controllers found",
      [("dir", .word dir.display)]⟩
  | policiesCollected file count =>
    ⟨.debug, .collectors, "collected policies",
      [("file", .word file.display), ("count", .count count)]⟩
  | commandsCollected dir depth count =>
    ⟨.debug, .collectors, "collected commands",
      [("dir", .word dir.display), ("depth", .word depth.name), ("count", .count count)]⟩
  | categoryEvaluated category checked missing =>
    ⟨.debug, .gate, "evaluated category",
      [("category", .quoted category.label), ("checked", .count checked),
        ("missing", .count missing)]⟩
  | runFinished passed evaluated =>
    ⟨.info, .gate, "doc drift checks finished",
      [("status", .word (if passed then "Passed" else "Failed")), ("evaluated", .count evaluated)]⟩

end Event

/-- The text of a value. -/
def FieldValue.text : FieldValue → String
  | word text => text
  | quoted text => "\"" ++ text ++ "\""
  | count n => toString n
  | flag b => if b then "true" else "false"

/-- The line of an event. -/
def Record.line (r : Record) : String :=
  r.level.column ++ " " ++ r.part.target ++ ": " ++ r.message ++
    String.join (r.fields.map fun (name, value) => " " ++ name ++ "=" ++ value.text)

end DocCoverage
