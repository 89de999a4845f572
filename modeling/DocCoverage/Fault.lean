import DocCoverage.Disk

/-!
Faults: what ends a run without a result. A fault of an input names the path as the run built it. Behind a
fault stand its causes, the next one each time the cause of the one before.
-/

namespace DocCoverage

/-- A required input that cannot be read; a directory that cannot be scanned to its end, because the
directory `closed` in it cannot be opened; a text that is no overlay; or an identifier whose pattern the
engine that searches for patterns refuses, in its own words. -/
inductive Fault
  | missingInput (path : Path) (cause : Cause)
  | walk (path closed : Path) (cause : Cause)
  | config (path : Path) (text : String)
  | pattern (refusal : String)
deriving DecidableEq, Repr

namespace Fault

/-- The message for the user. -/
def message : Fault → String
  | missingInput path _ => "required input is unreadable: " ++ path.display
  | walk path _ _ => "failed to walk " ++ path.display
  | config path _ => "invalid config " ++ path.display
  | pattern refusal => "invalid pattern: " ++ refusal

/-- The causes of a fault. What is wrong with a text that is no overlay is said in the words `complaint` of
the reader of overlays. -/
def causes (complaint : String → String) : Fault → List String
  | missingInput _ cause => [cause.message]
  | walk _ closed cause =>
    ["IO error for operation on " ++ closed.display ++ ": " ++ cause.message, cause.message]
  | config _ text => [complaint text]
  | pattern refusal => [refusal]

/-- A text behind a mark, with a margin in front of each further line. -/
def indented (mark margin : String) (text : String) : String :=
  mark ++ String.ofList (text.toList.flatMap fun c => if c = '\n' then c :: margin.toList else [c])

/-- The lines for causes. A single cause has no number. -/
def causeLines : List String → List String
  | [cause] => [indented "    " "    " cause]
  | causes => causes.mapIdx fun n cause => indented ("    " ++ toString n ++ ": ") "       " cause

/-- The lines that close the log of a run with a fault: the message and the causes. -/
def report (complaint : String → String) (fault : Fault) : List String :=
  ("Error: " ++ fault.message) :: "" :: "Caused by:" :: causeLines (fault.causes complaint)

end Fault
end DocCoverage
