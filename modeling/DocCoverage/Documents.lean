import DocCoverage.Layout
import DocCoverage.Log.Traced

/-!
The documents of a run: the texts in which identifiers have to be mentioned. Both are read before any
source is.
-/

namespace DocCoverage

/-- The texts of the documents. -/
structure Documents where
  api : String
  application : String
deriving DecidableEq, Repr

namespace Documents

/-- Reads one document. -/
def readOne (disk : Disk) (path : Path) : Traced String := do
  let text ← Traced.ofDisk path (disk.readText path)
  Traced.report (.documentLoaded path text.utf8ByteSize)
  return text

/-- Reads the documents. -/
def load (disk : Disk) (layout : Layout) : Traced Documents := do
  let api ← readOne disk (layout.resolve layout.apiDoc)
  let application ← readOne disk (layout.resolve layout.applicationDoc)
  return ⟨api, application⟩

/-- The text of one document. -/
def text (documents : Documents) : DocumentKind → String
  | .api => documents.api
  | .application => documents.application

end Documents
end DocCoverage
