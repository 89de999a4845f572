import DocCoverage.Program
import DocCoverage.Proofs.Json.Reading

/-! # What is printed for programs can be read back

A format puts data into JSON and takes them back (`Format`); formats are made for the
parts of a report and put together.  A printed text carries data when it is one JSON text
and a line feed, and the one value that it has is an object with the data under `data` and
the verdict under `ok` (`Carries`).  So two texts that carry different data differ
(`Carries.unique`).

Whatever is printed in an envelope carries its data (`carries_envelope`): the envelope is
written as JSON allows, and every JSON text is read as its value.  Hence reports and rows
are printed without loss, whatever characters their texts hold
(`printed_json_reads_back`). -/

namespace DocCoverage
namespace Json

/-! ## Parts of a value -/

/-- The value of a member of an object. -/
def member? (name : String) : Json → Option Json
  | .object members => members.lookup name
  | _ => none

/-- The text that a value is. -/
def text? : Json → Option String
  | .text s => some s
  | _ => none

/-- The number that a value is. -/
def count? : Json → Option Nat
  | .count n => some n
  | _ => none

/-- The items of the list that a value is. -/
def items? : Json → Option (List Json)
  | .list items => some items
  | _ => none

@[simp]
theorem member?_self (name : String) (value : Json) (rest : List (String × Json)) :
    (object ((name, value) :: rest)).member? name = some value := by
  simp [member?]

@[simp]
theorem member?_of_ne {name other : String} (h : name ≠ other) (value : Json)
    (rest : List (String × Json)) :
    (object ((other, value) :: rest)).member? name = (object rest).member? name := by
  simp [member?, List.lookup_cons, beq_false_of_ne h]

/-! ## Formats -/

/-- A way to put data into JSON from which they can be taken back. -/
structure Format (α : Type) where
  json : α → Json
  ofJson? : Json → Option α
  ofJson?_json : ∀ a, ofJson? (json a) = some a

namespace Format

/-- A text as itself. -/
def text : Format String where
  json := .text
  ofJson? := text?
  ofJson?_json _ := rfl

/-- A list as the list of its items. -/
def list {α : Type} (format : Format α) : Format (List α) where
  json items := .list (items.map format.json)
  ofJson? json := json.items?.bind fun items => items.mapM format.ofJson?
  ofJson?_json items := by
    show (items.map format.json).mapM format.ofJson? = some items
    induction items with
    | nil => rfl
    | cons item items ih => simp [format.ofJson?_json, ih]

end Format

/-- What is printed is one JSON text and a line feed.  Its one value is an object that says
whether all is well, and holds the data in a format. -/
def Carries {α : Type} (printed : String) (format : Format α) (ok : Bool) (data : α) : Prop :=
  ∃ text json, printed = text ++ "\n" ∧ Spells json text.toList ∧
    read? printed = some json ∧ (∀ other, Document other printed.toList → other = json) ∧
    json.member? "ok" = some (.flag ok) ∧
    (json.member? "data").bind format.ofJson? = some data

/-- A text carries one verdict and one piece of data. -/
theorem Carries.unique {α : Type} {printed : String} {format : Format α} {ok ok' : Bool}
    {data data' : α} (h : Carries printed format ok data)
    (h' : Carries printed format ok' data') : ok = ok' ∧ data = data' := by
  obtain ⟨-, json, -, -, hread, -, hok, hdata⟩ := h
  obtain ⟨-, json', -, -, hread', -, hok', hdata'⟩ := h'
  obtain rfl : json = json' := Option.some.inj (hread.symm.trans hread')
  have hflag := Option.some.inj (hok.symm.trans hok')
  exact ⟨Json.flag.inj hflag, Option.some.inj (hdata.symm.trans hdata')⟩

/-- A value on lines of its own is a document. -/
theorem document_pretty (value : Json) : Document value value.pretty.toList := by
  have hend : IsBlank ['\n'] := by simp [IsBlank]
  have hdocument := Document.around isBlank_nil (spells_written 0 value) hend
  rwa [pretty, String.toList_ofList]

/-- **An envelope carries its data.** -/
theorem carries_envelope {α : Type} (format : Format α) (ok : Bool) (data : α) :
    Carries (envelope ok (format.json data)).pretty format ok data := by
  have hdocument := document_pretty (envelope ok (format.json data))
  have hok : (envelope ok (format.json data)).member? "ok" = some (.flag ok) := by
    simp [envelope]
  have hdata : (envelope ok (format.json data)).member? "data" = some (format.json data) := by
    simp [envelope]
  refine ⟨String.ofList (written 0 (envelope ok (format.json data))), _, ?_, ?_,
    read?_of_document hdocument, fun other hother => hother.unique hdocument, hok, ?_⟩
  · rw [pretty, String.ofList_append]
  · rw [String.toList_ofList]
    exact spells_written 0 _
  · rw [hdata]
    exact format.ofJson?_json data

end Json

open Json (Format Carries)

/-! ## Reports -/

/-- The category of a word. -/
def Category.ofId? (word : String) : Option Category :=
  order.find? fun category => category.id == word

theorem Category.ofId?_id (category : Category) : ofId? category.id = some category := by
  cases category <;> decide

/-- The status of a word. -/
def Status.ofId? (word : String) : Option Status :=
  [passed, failed].find? fun status => status.id == word

theorem Status.ofId?_id (status : Status) : ofId? status.id = some status := by
  cases status <;> decide

/-- A result as the object of its fields. -/
def CategoryResult.format : Format CategoryResult where
  json := CategoryResult.json
  ofJson? json := do
    let category ← ((← json.member? "category").text?).bind Category.ofId?
    let title ← (← json.member? "title").text?
    let document ← (← json.member? "document").text?
    let checked ← (← json.member? "checked").count?
    let missing ← Format.text.list.ofJson? (← json.member? "missing")
    return ⟨category, title, document, checked, missing⟩
  ofJson?_json result := by
    have hmissing : Format.text.list.ofJson? (.list (result.missing.map .text)) =
        some result.missing := Format.text.list.ofJson?_json result.missing
    simp [CategoryResult.json, Json.text?, Json.count?, Category.ofId?_id, hmissing]

/-- A report as the object of its status and its results. -/
def Report.format : Format Report where
  json := Report.json
  ofJson? json := do
    let status ← ((← json.member? "status").text?).bind Status.ofId?
    let results ← CategoryResult.format.list.ofJson? (← json.member? "results")
    return ⟨status, results⟩
  ofJson?_json report := by
    have hresults : CategoryResult.format.list.ofJson?
        (.list (report.results.map CategoryResult.json)) = some report.results :=
      CategoryResult.format.list.ofJson?_json report.results
    simp [Report.json, Json.text?, Status.ofId?_id, hresults]

/-- A row of the inventory as the object of its category and its identifier. -/
def Program.rowFormat : Format (Category × String) where
  json := rowJson
  ofJson? json := do
    let category ← ((← json.member? "category").text?).bind Category.ofId?
    let identifier ← (← json.member? "identifier").text?
    return (category, identifier)
  ofJson?_json row := by
    simp [rowJson, Json.text?, Category.ofId?_id]

/-- **What is printed for programs can be read back.**  The JSON of a report carries the
report, with the verdict of its status; the JSON of rows carries the rows, whatever format
they have, and so does that of the inventory.  Hence only equal reports and equal lists of
rows print the same. -/
theorem printed_json_reads_back :
    (∀ report : Report,
      Carries (report.printed true) Report.format (decide (report.status = .passed)) report) ∧
    (∀ report report' : Report, report.printed true = report'.printed true ↔ report = report') ∧
    (∀ (α : Type) (format : Format α) (rows rows' : List α) (toLine : α → String),
      Carries (Rows.printed rows true format.json toLine) format.list true rows ∧
        (Rows.printed rows true format.json toLine = Rows.printed rows' true format.json toLine ↔
          rows = rows')) ∧
    (∀ inventory : Inventory,
      Carries (Rows.printed inventory.rows true Program.rowJson Program.rowLine)
        Program.rowFormat.list true inventory.rows) := by
  have hreport : ∀ report : Report,
      Carries (report.printed true) Report.format (decide (report.status = .passed)) report := by
    intro report
    have hpassed : report.passed = decide (report.status = .passed) := by
      cases h : report.status <;> simp [Report.passed, h]
    rw [← hpassed]
    exact Json.carries_envelope Report.format report.passed report
  have hrows : ∀ (α : Type) (format : Format α) (rows : List α) (toLine : α → String),
      Carries (Rows.printed rows true format.json toLine) format.list true rows :=
    fun α format rows toLine => Json.carries_envelope format.list true rows
  refine ⟨hreport, ?_, ?_, fun inventory => hrows _ Program.rowFormat inventory.rows _⟩
  · intro report report'
    refine ⟨fun h => ?_, fun h => h ▸ rfl⟩
    exact ((hreport report).unique (h ▸ hreport report')).2
  · intro α format rows rows' toLine
    refine ⟨hrows α format rows toLine, fun h => ?_, fun h => h ▸ rfl⟩
    exact ((hrows α format rows toLine).unique (h ▸ hrows α format rows' toLine)).2

end DocCoverage
