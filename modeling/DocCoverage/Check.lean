import DocCoverage.Collect
import DocCoverage.Documents
import DocCoverage.Matcher
import DocCoverage.Report

/-!
Checks: each category's identifiers against its document. A check that stops at the first gap collects
no identifiers of the categories behind it, so what is wrong with their sources does not show.
-/

namespace DocCoverage

/-- Whether a check goes on behind a category with gaps. -/
inductive Mode
  | failFast
  | keepGoing
deriving DecidableEq, Repr

namespace Check

/-- The result of one category. -/
def evaluate (matcher : Matcher) (disk : Disk) (layout : Layout) (documents : Documents)
    (category : Category) : Traced CategoryResult := do
  let identifiers ← Collect.ofCategory disk layout category
  let path := layout.documentPath category.document
  let missing ← Traced.ofResult (matcher.missing (documents.text category.document) identifiers)
  Traced.report (.categoryEvaluated category identifiers.length missing.length)
  return {
    category := category
    title := category.title path
    document := path.display
    checked := identifiers.length
    missing := missing }

/-- The results of categories in order, up to the first one with gaps if the mode says so. -/
def evaluateAll (matcher : Matcher) (disk : Disk) (layout : Layout) (documents : Documents)
    (mode : Mode) : List Category → Traced (List CategoryResult)
  | [] => pure []
  | category :: rest => do
    let result ← evaluate matcher disk layout documents category
    if !result.passed && mode == .failFast then return [result]
    let results ← evaluateAll matcher disk layout documents mode rest
    return result :: results

/-- The report of results: the check passed if all of them did. -/
def reportOf (results : List CategoryResult) : Report :=
  ⟨if results.all CategoryResult.passed then .passed else .failed, results⟩

/-- Runs a check. -/
def run (matcher : Matcher) (disk : Disk) (layout : Layout) (documents : Documents)
    (mode : Mode) : Traced Report := do
  let results ← evaluateAll matcher disk layout documents mode Category.order
  let report := reportOf results
  Traced.report (.runFinished report.passed results.length)
  return report

end Check
end DocCoverage
