import DocCoverage.Proofs.Agreement
import DocCoverage.Proofs.FirstFault
import DocCoverage.Proofs.Json.Printed
import DocCoverage.Proofs.LoadedLayout

/-! # The contract of printed reports

Programs that read a report rely on a contract: which categories there are, what title
and document stand beside them, and that the missing identifiers are a set without an
empty member (`Report.KeepsContract`).  A report as such may break all of it.  One that a
check prints keeps it, because each of its results is made of what was collected
(`Check.exists_collected_of_mem`), what is collected is ascending and has no empty member,
and a document that loaded has a path.

The bounds of the published schemas are about the JSON, and follow from the contract
(`Report.KeepsContract.withinBounds`). -/

namespace DocCoverage

/-! ## The contract -/

/-- What a result says about its category under a layout. -/
structure CategoryResult.KeepsContract (layout : Layout) (result : CategoryResult) : Prop where
  document_eq : result.document = (layout.documentPath result.category.document).display
  document_ne : result.document ≠ ""
  title_eq : result.title = "Missing " ++ result.category.label ++ " in " ++ result.document ++ ":"
  ascending : result.missing.Pairwise (· < ·)
  empty_notMem : "" ∉ result.missing
  length_le : result.missing.length ≤ result.checked

/-- What a report says about a check under a layout. -/
structure Report.KeepsContract (layout : Layout) (report : Report) : Prop where
  results_ne : report.results ≠ []
  categories : report.results.map CategoryResult.category <+: Category.order
  results : ∀ result ∈ report.results, result.KeepsContract layout
  status_iff : report.status = .passed ↔ ∀ result ∈ report.results, result.missing = []

/-- The texts of a JSON list differ, and none of them is empty. -/
def Json.IsNameSet (json : Json) : Prop :=
  ∃ items, json.items? = some items ∧ items.Nodup ∧
    ∀ item ∈ items, ∃ name, item.text? = some name ∧ 1 ≤ name.length

/-- The bounds that the schema of a report sets: at most three results, each with a
document of one character at least, and with missing identifiers that differ and have one
character at least. -/
def Json.WithinBounds (json : Json) : Prop :=
  ∃ results, (json.member? "results").bind Json.items? = some results ∧ results.length ≤ 3 ∧
    ∀ result ∈ results,
      (∃ document, (result.member? "document").bind Json.text? = some document ∧
        1 ≤ document.length) ∧
      ∃ missing, result.member? "missing" = some missing ∧ missing.IsNameSet

theorem one_le_length_of_ne_empty {s : String} (h : s ≠ "") : 1 ≤ s.length := by
  have hlength : s.length ≠ 0 := fun hzero => h (String.length_eq_zero_iff.mp hzero)
  omega

/-- Identifiers that ascend are a set of names in JSON. -/
theorem Json.isNameSet_of_ascending {names : List String} (h : names.Pairwise (· < ·))
    (hempty : "" ∉ names) : (Json.list (names.map .text)).IsNameSet := by
  refine ⟨_, rfl, ?_, fun item hitem => ?_⟩
  · have hnodup : names.Nodup := h.imp fun hlt => String.ne_of_lt hlt
    exact hnodup.map fun _ _ heq => Json.text.inj heq
  · obtain ⟨name, hname, rfl⟩ := List.mem_map.mp hitem
    exact ⟨name, rfl, one_le_length_of_ne_empty fun heq => hempty (heq ▸ hname)⟩

/-- **A report that keeps its contract is within the bounds of the schema.** -/
theorem Report.KeepsContract.withinBounds {layout : Layout} {report : Report}
    (h : report.KeepsContract layout) : report.json.WithinBounds := by
  refine ⟨report.results.map CategoryResult.json, by simp [Report.json, Json.items?], ?_, ?_⟩
  · have hlength := h.categories.length_le
    rwa [List.length_map] at hlength ⊢
  · intro json hjson
    obtain ⟨result, hresult, rfl⟩ := List.mem_map.mp hjson
    have hcontract := h.results result hresult
    refine ⟨⟨result.document, ?_, one_le_length_of_ne_empty hcontract.document_ne⟩, _, ?_,
      Json.isNameSet_of_ascending hcontract.ascending hcontract.empty_notMem⟩
    · simp [CategoryResult.json, Json.text?]
    · simp [CategoryResult.json]

/-! ## What a check returns -/

namespace Check

variable {matcher : Matcher} {disk : Disk} {layout : Layout} {documents : Documents} {mode : Mode}

/-- The results are those of the first categories, of all if the check goes on. -/
theorem categories_of_evaluateAll {results : List CategoryResult}
    (h : (evaluateAll matcher disk layout documents mode Category.order).result = .ok results) :
    results ≠ [] ∧ results.map CategoryResult.category <+: Category.order ∧
      (mode = .keepGoing → results.map CategoryResult.category = Category.order) := by
  cases mode with
  | failFast => exact ⟨results_ne_nil h, evaluateAll_failFast_categories h, nofun⟩
  | keepGoing =>
    have hall := evaluateAll_keepGoing_categories h
    refine ⟨?_, hall ▸ List.prefix_rfl, fun _ => hall⟩
    rintro rfl
    cases hall

/-- The result of a category keeps the contract. -/
theorem keepsContract_resultOf {category : Category} {identifiers : List String}
    (hlayout : layout.Tidy)
    (hpath : layout.documentPath category.document ≠ .ofString "")
    (hcollect : (Collect.ofCategory disk layout category).result = .ok identifiers) :
    (resultOf layout documents category identifiers).KeepsContract layout where
  document_eq := rfl
  document_ne := by
    obtain ⟨text, htext⟩ : ∃ text, layout.documentPath category.document = .ofString text := by
      cases category.document with
      | api => exact hlayout.spelled .apiDoc
      | application => exact hlayout.spelled .applicationDoc
    rw [resultOf, htext, Path.display_ofString]
    rintro rfl
    exact hpath htext
  title_eq := rfl
  ascending := (Collect.ascending_ofCategory hcollect).filter _
  empty_notMem hmem :=
    Collect.empty_notMem_ofCategory hlayout.pinned_ne hcollect (List.mem_filter.mp hmem).1
  length_le := List.length_filter_le _ _

/-- **What a check returns keeps the contract**, if the paths of its documents are not
empty. -/
theorem keepsContract_of_run {report : Report} (hlayout : layout.Tidy)
    (hpath : ∀ kind, layout.documentPath kind ≠ .ofString "")
    (h : (run matcher disk layout documents mode).result = .ok report) :
    report.KeepsContract layout ∧
      (mode = .keepGoing → report.results.map CategoryResult.category = Category.order) := by
  obtain ⟨results, hresults, rfl⟩ := run_ok_iff.mp h
  obtain ⟨hne, hprefix, hall⟩ := categories_of_evaluateAll hresults
  refine ⟨⟨hne, hprefix, fun result hmem => ?_, status_reportOf_iff results⟩, hall⟩
  obtain ⟨category, identifiers, hcollect, -, rfl⟩ := exists_collected_of_mem hresults hmem
  exact keepsContract_resultOf hlayout (hpath _) hcollect

end Check

namespace Program

/-- **Every report that a check prints keeps its contract.**  For every file system, under
every layout that loads there from a root and an overlay, in either mode and form: what is
printed is the report of the loaded documents; its categories are the first ones in order,
one at least, and all of them if the check goes on; each result names the configured path
of its document, which is not empty, has the title of its category and that path, and
misses identifiers that ascend strictly, are not empty and are no more than were checked;
the status says whether nothing is missing.  So the JSON of the report is within the bounds
of its schema, and no row of an inventory has an empty identifier. -/
theorem printed_report_keeps_contract (matcher : Matcher) (fs : FileSystem) (root : Path)
    (config : Option Path) {layout : Layout}
    (hlayout : (Layout.load fs.disk root config).result = .ok layout) :
    (∀ json keepGoing printed, (check matcher fs.disk layout json keepGoing).result = .ok printed →
      ∃ documents report, (Documents.load fs.disk layout).result = .ok documents ∧
        (Check.run matcher fs.disk layout documents (modeOf keepGoing)).result = .ok report ∧
        printed.stdout = report.printed json ∧
        report.KeepsContract layout ∧
        (keepGoing = true → report.results.map CategoryResult.category = Category.order) ∧
        report.json.WithinBounds) ∧
    ∀ inventory, (Inventory.collect fs.disk layout).result = .ok inventory →
      ∀ row ∈ inventory.rows, row.2 ≠ "" ∧
        ∃ identifier, ((rowJson row).member? "identifier").bind Json.text? = some identifier ∧
          1 ≤ identifier.length := by
  have htidy : layout.Tidy := Layout.tidy_of_load hlayout
  constructor
  · intro json keepGoing printed hcheck
    obtain ⟨documents, report, hload, hrun, rfl⟩ := check_ok_iff.mp hcheck
    obtain ⟨hcontract, hall⟩ :=
      Check.keepsContract_of_run htidy (Documents.path_ne_of_load hload) hrun
    refine ⟨documents, report, hload, hrun, rfl, hcontract, fun hgoing => ?_,
      hcontract.withinBounds⟩
    exact hall (by rw [hgoing, modeOf, if_pos rfl])
  · rintro inventory hcollect ⟨category, identifier⟩ hrow
    have hne : identifier ≠ "" := by
      rintro rfl
      exact Collect.empty_notMem_ofCategory htidy.pinned_ne
        (Inventory.collect_ok_iff.mp hcollect category) (Inventory.mem_rows.mp hrow)
    exact ⟨hne, identifier, by simp [rowJson, Json.text?], one_le_length_of_ne_empty hne⟩

/-- A file system with one controller and empty documents. -/
def undocumented : FileSystem where
  current := []
  root := .directory [
    (Text.encode "docs", .directory
      [(Text.encode "Api-Doc.md", .file (Text.encode "")),
        (Text.encode "Application-Doc.md", .file (Text.encode ""))]),
    (Text.encode "src", .directory [(Text.encode "TowerOps.Api", .directory
      [(Text.encode "Controllers", .directory
        [(Text.encode "WidgetController.cs", .file [])])])])]

theorem load_undocumented :
    (Documents.load undocumented.disk (.standard (.ofString "."))).result = .ok ⟨"", ""⟩ := by
  have hapi : undocumented.locate (.ofString "./docs/Api-Doc.md") =
      .ok (.file (Text.encode "")) := rfl
  have happlication : undocumented.locate (.ofString "./docs/Application-Doc.md") =
      .ok (.file (Text.encode "")) := rfl
  exact Documents.load_ok_iff.mpr
    ⟨FileSystem.readText_of_locate hapi, FileSystem.readText_of_locate happlication⟩

/-- What a check of it reports. -/
def undocumentedReport : Report where
  status := .failed
  results := [⟨.controllers, "Missing controllers in docs/Api-Doc.md:", "docs/Api-Doc.md", 1,
    ["WidgetController"]⟩]

theorem run_undocumented :
    (Check.run .standard undocumented.disk (.standard (.ofString ".")) ⟨"", ""⟩ .failFast).result =
      .ok undocumentedReport := by
  refine Check.run_ok_iff.mpr ⟨undocumentedReport.results, ?_, rfl⟩
  have hcollect : (Collect.ofCategory undocumented.disk (.standard (.ofString "."))
      .controllers).result = .ok ["WidgetController"] := rfl
  have haccepts : Matcher.standard.Accepts ["WidgetController"] := by
    decide +kernel
  rw [Category.order, Check.result_evaluateAll_cons,
    Check.evaluate_ok_iff.mpr ⟨_, hcollect, haccepts, rfl⟩]
  rfl

theorem check_undocumented (json : Bool) :
    (check .standard undocumented.disk (.standard (.ofString ".")) json false).result =
      .ok ⟨1, undocumentedReport.printed json⟩ :=
  check_ok_iff.mpr ⟨_, _, load_undocumented, run_undocumented, rfl⟩

/-- The report of its check keeps the contract. -/
theorem contract_undocumented :
    (Layout.load undocumented.disk (.ofString ".") none).result =
        .ok (.standard (.ofString ".")) ∧
      (check .standard undocumented.disk (.standard (.ofString ".")) true false).result =
        .ok ⟨1, undocumentedReport.printed true⟩ ∧
      undocumentedReport.KeepsContract (.standard (.ofString ".")) ∧
      undocumentedReport.json.WithinBounds := by
  have hload : (Layout.load undocumented.disk (.ofString ".") none).result =
      .ok (.standard (.ofString ".")) := rfl
  obtain ⟨hprinted, -⟩ := printed_report_keeps_contract .standard undocumented
    (.ofString ".") none hload
  obtain ⟨documents, report, hdocuments, hrun, -, hcontract, -, hbounds⟩ :=
    hprinted true false _ (check_undocumented true)
  -- the check has one report only
  obtain rfl : ⟨"", ""⟩ = documents :=
    Except.ok.inj (load_undocumented.symm.trans hdocuments)
  obtain rfl : undocumentedReport = report := Except.ok.inj (run_undocumented.symm.trans hrun)
  exact ⟨hload, check_undocumented true, hcontract, hbounds⟩

end Program
end DocCoverage
