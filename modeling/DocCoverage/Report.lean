import DocCoverage.Category
import DocCoverage.Json

/-!
Reports: what was checked in each evaluated category, what its document lacks, and whether the check as
a whole passed. A report is printed as text for people or as JSON for programs.
-/

namespace DocCoverage

/-- The outcome of one category. `missing` lists the identifiers that the document does not mention. -/
structure CategoryResult where
  category : Category
  title : String
  document : String
  checked : Nat
  missing : List String
deriving DecidableEq, Repr

/-- Whether a check passed. -/
inductive Status
  | passed
  | failed
deriving DecidableEq, Repr

/-- The word for a status in output that programs read. -/
def Status.id : Status → String
  | .passed => "passed"
  | .failed => "failed"

/-- The outcome of a check, with the evaluated categories in order. -/
structure Report where
  status : Status
  results : List CategoryResult
deriving DecidableEq, Repr

namespace CategoryResult

/-- Nothing is missing. -/
def passed (result : CategoryResult) : Bool := result.missing.isEmpty

/-- The lines for people: the title, and a line for each missing identifier. -/
def text (result : CategoryResult) : String :=
  result.title ++ "\n" ++
    String.join (result.missing.map fun identifier => "- " ++ identifier ++ "\n")

/-- The result for programs. -/
def json (result : CategoryResult) : Json :=
  .object [
    ("category", .text result.category.id),
    ("title", .text result.title),
    ("document", .text result.document),
    ("checked", .count result.checked),
    ("missing", .list (result.missing.map .text))]

end CategoryResult

namespace Report

/-- The check passed, by its status. -/
def passed (report : Report) : Bool := report.status == .passed

/-- The results with gaps. -/
def failures (report : Report) : List CategoryResult :=
  report.results.filter fun result => !result.passed

/-- The line of a check that passed. -/
def successLine : String :=
  "Doc drift checks passed: controllers, policies, and critical commands are documented."

/-- The report for people. -/
def text (report : Report) : String :=
  if report.passed then successLine ++ "\n"
  else String.join (report.failures.map CategoryResult.text)

/-- The report for programs. -/
def json (report : Report) : Json :=
  .object [
    ("status", .text report.status.id),
    ("results", .list (report.results.map CategoryResult.json))]

/-- What is printed of a report. -/
def printed (report : Report) (json : Bool) : String :=
  if json then (Json.envelope report.passed report.json).pretty else report.text

end Report

namespace Rows

/-- What is printed of a list of rows: a JSON list of them, or a line for each. -/
def printed {α : Type} (rows : List α) (json : Bool) (toJson : α → Json) (toLine : α → String) :
    String :=
  if json then (Json.envelope true (.list (rows.map toJson))).pretty
  else String.join (rows.map fun row => toLine row ++ "\n")

end Rows
end DocCoverage
