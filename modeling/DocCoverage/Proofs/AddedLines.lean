import Mathlib.Data.List.Forall2
import DocCoverage.Proofs.Inputs
import DocCoverage.Proofs.OwnLine

/-! # Adding lines to a document

Text that is glued to an identifier can hide it, so documents may not be edited at will.
Whole lines in front of a document and behind it hide nothing: the line feeds at the two
seams count as the ends of the text did, so what the document mentioned it still mentions
(`mentions_withLines`).  A check that goes on then finds the same identifiers and lacks at
most those that it lacked before (`added_lines_narrow_gaps`). -/

namespace DocCoverage

/-- A document with text in front of it and behind it, on lines of their own. -/
def withLines (before document behind : String) : String :=
  before ++ "\n" ++ document ++ "\n" ++ behind

/-- The document stands alone between the added lines. -/
theorem standsAlone_withLines (before document behind : String) :
    StandsAlone (withLines before document behind).toList document.toList := by
  refine ⟨before.toList ++ ['\n'], '\n' :: behind.toList, ?_, ?_, Or.inr rfl⟩
  · simp [withLines]
  · right
    rw [List.getLast?_concat]

/-- **Added lines hide nothing.** -/
theorem mentions_withLines {document identifier : String} (before behind : String)
    (h : mentions document identifier = true) :
    mentions (withLines before document behind) identifier = true :=
  mentions_iff.mpr
    (occurs_of_alone (standsAlone_withLines before document behind) (mentions_iff.mp h))

/-- A text that mentions at least as much lacks at most as much, in the same order. -/
theorem unmentioned_sublist {text text' : String}
    (h : ∀ identifier, mentions text identifier = true → mentions text' identifier = true)
    (identifiers : List String) :
    (unmentioned identifiers text').Sublist (unmentioned identifiers text) := by
  refine List.monotone_filter_right identifiers fun identifier hmissing => ?_
  cases hmentions : mentions text identifier with
  | false => rfl
  | true => simp [h identifier hmentions] at hmissing

/-! ## Checks -/

/-- Documents that mention at least what others do. -/
def Documents.MentionAll (documents others : Documents) : Prop :=
  ∀ kind identifier, mentions (others.text kind) identifier = true →
    mentions (documents.text kind) identifier = true

/-- A result that differs from another at most by lacking less. -/
structure CategoryResult.Narrows (result other : CategoryResult) : Prop where
  category : result.category = other.category
  title : result.title = other.title
  document : result.document = other.document
  checked : result.checked = other.checked
  missing : result.missing.Sublist other.missing

theorem CategoryResult.Narrows.missing_eq_nil {result other : CategoryResult}
    (h : result.Narrows other) (hnone : other.missing = []) : result.missing = [] := by
  have hmissing := h.missing
  rwa [hnone, List.sublist_nil] at hmissing

namespace Check

variable {matcher : Matcher} {disk : Disk} {layout : Layout} {documents others : Documents}

theorem narrows_resultOf (h : documents.MentionAll others) (category : Category)
    (identifiers : List String) :
    (resultOf layout documents category identifiers).Narrows
      (resultOf layout others category identifiers) where
  category := rfl
  title := rfl
  document := rfl
  checked := rfl
  missing := unmentioned_sublist (h category.document) identifiers

theorem evaluate_narrows (h : documents.MentionAll others) {category : Category}
    {other : CategoryResult}
    (hother : (evaluate matcher disk layout others category).result = .ok other) :
    ∃ result, (evaluate matcher disk layout documents category).result = .ok result ∧
      result.Narrows other := by
  obtain ⟨identifiers, hcollect, haccepts, rfl⟩ := evaluate_ok_iff.mp hother
  exact ⟨_, evaluate_ok_iff.mpr ⟨identifiers, hcollect, haccepts, rfl⟩,
    narrows_resultOf h category identifiers⟩

/-- A check that goes on returns narrower results for better documents. -/
theorem evaluateAll_narrows (h : documents.MentionAll others) {categories : List Category}
    {found : List CategoryResult}
    (hfound : (evaluateAll matcher disk layout others .keepGoing categories).result = .ok found) :
    ∃ results,
      (evaluateAll matcher disk layout documents .keepGoing categories).result = .ok results ∧
        List.Forall₂ CategoryResult.Narrows results found := by
  induction categories generalizing found with
  | nil =>
    obtain rfl := eq_nil_of_evaluateAll hfound
    exact ⟨[], rfl, .nil⟩
  | cons category rest ih =>
    obtain ⟨other, more, hother, hmore, rfl⟩ := evaluateAll_keepGoing_cons_ok hfound
    obtain ⟨result, hresult, hnarrows⟩ := evaluate_narrows h hother
    obtain ⟨results, hresults, hrest⟩ := ih hmore
    refine ⟨result :: results, ?_, .cons hnarrows hrest⟩
    rw [result_evaluateAll_cons, hresult, hresults]
    simp [Except.bind, Except.map]

/-- The documents have no part in the fault of a check that goes on. -/
theorem run_error_iff_of_documents (matcher : Matcher) (disk : Disk) (layout : Layout)
    (documents others : Documents) (fault : Fault) :
    (run matcher disk layout documents .keepGoing).result = .error fault ↔
      (run matcher disk layout others .keepGoing).result = .error fault := by
  rw [failsAs_run_keepGoing matcher disk layout documents fault,
    failsAs_run_keepGoing matcher disk layout others fault]

end Check

theorem Report.passed_of_narrows {results found : List CategoryResult}
    (h : List.Forall₂ CategoryResult.Narrows results found)
    (hpassed : (Check.reportOf found).status = .passed) :
    (Check.reportOf results).status = .passed := by
  rw [Check.status_reportOf_iff] at hpassed ⊢
  induction h with
  | nil => exact List.forall_mem_nil _
  | cons hnarrows _ ih =>
    obtain ⟨hfirst, hrest⟩ := List.forall_mem_cons.mp hpassed
    exact List.forall_mem_cons.mpr ⟨hnarrows.missing_eq_nil hfirst, ih hrest⟩

/-- **Adding lines to the documents never creates a gap.**  A check that goes on fails as
it did before, or returns the same results for the same categories, each lacking a sublist
of what it lacked, and passes if it did.  Of any identifiers that were looked for before, a
sublist is missing of those that were. -/
theorem added_lines_narrow_gaps (matcher : Matcher) (disk : Disk) (layout : Layout)
    (api application before behind before' behind' : String) :
    (∀ fault,
      (Check.run matcher disk layout ⟨withLines before api behind,
          withLines before' application behind'⟩ .keepGoing).result = .error fault ↔
        (Check.run matcher disk layout ⟨api, application⟩ .keepGoing).result = .error fault) ∧
    (∀ report, (Check.run matcher disk layout ⟨api, application⟩ .keepGoing).result = .ok report →
      ∃ report', (Check.run matcher disk layout ⟨withLines before api behind,
          withLines before' application behind'⟩ .keepGoing).result = .ok report' ∧
        report'.results.map CategoryResult.category = Category.order ∧
        List.Forall₂ CategoryResult.Narrows report'.results report.results ∧
        (report.status = .passed → report'.status = .passed)) ∧
    (∀ identifiers missing, matcher.missing api identifiers = .ok missing →
      ∃ fewer, matcher.missing (withLines before api behind) identifiers = .ok fewer ∧
        fewer.Sublist missing) := by
  have hmention : (Documents.mk (withLines before api behind)
      (withLines before' application behind')).MentionAll ⟨api, application⟩ := by
    intro kind identifier hidentifier
    cases kind with
    | api => exact mentions_withLines before behind hidentifier
    | application => exact mentions_withLines before' behind' hidentifier
  refine ⟨fun fault => Check.run_error_iff_of_documents matcher disk layout _ _ fault, ?_, ?_⟩
  · intro report hreport
    obtain ⟨found, hfound, rfl⟩ := Check.run_ok_iff.mp hreport
    obtain ⟨results, hresults, hnarrows⟩ := Check.evaluateAll_narrows hmention hfound
    exact ⟨Check.reportOf results, Check.run_ok_iff.mpr ⟨results, hresults, rfl⟩,
      Check.evaluateAll_keepGoing_categories hresults, hnarrows,
      Report.passed_of_narrows hnarrows⟩
  · intro identifiers missing hmissing
    obtain ⟨haccepts, rfl⟩ := Matcher.missing_ok_iff.mp hmissing
    exact ⟨_, Matcher.missing_of_accepts haccepts _,
      unmentioned_sublist (fun _ => mentions_withLines before behind) identifiers⟩

/-- The documents of the documented disk may be added to. -/
theorem added_lines_documented :
    ∃ report, (Check.run .standard Program.documented (.standard (.ofString "."))
      ⟨withLines "WidgetControllers" "WidgetController" "Widget",
        withLines "" ("\n".intercalate (Layout.standard (.ofString ".")).pinnedCommands) ""⟩
      .keepGoing).result = .ok report ∧ report.status = .passed := by
  have hcovered : Program.documentedInventory.CoveredBy .standard ⟨"WidgetController",
      "\n".intercalate (Layout.standard (.ofString ".")).pinnedCommands⟩ := by
    simp only [Inventory.CoveredBy, Matcher.finds_true_iff]
    intro category
    cases category <;> decide +kernel
  obtain ⟨before, hbefore, -, hpassed⟩ :=
    (Check.run_passes_iff Program.collect_documented _ .keepGoing).mpr hcovered
  obtain ⟨-, hafter, -⟩ := added_lines_narrow_gaps .standard Program.documented
    (.standard (.ofString ".")) "WidgetController"
    ("\n".intercalate (Layout.standard (.ofString ".")).pinnedCommands)
    "WidgetControllers" "Widget" "" ""
  obtain ⟨report, hreport, -, -, hkept⟩ := hafter before hbefore
  exact ⟨report, hreport, hkept hpassed⟩

end DocCoverage
