import DocCoverage.Proofs.Contract
import Mathlib.Data.List.TFAE

/-! # The channels of a check agree

A check says in five places whether it passed: by its exit code, by the verdict of the JSON
envelope, by the status in the JSON, by the results with gaps, and by the success line.
Each of them is computed from another field, so a report made by hand can contradict
itself.  A report that a check returns is consistent (`Report.Consistent`): its status is
passed exactly when no result has gaps, and each title is that of a category.

The first of these makes all channels but the text agree.  The text of a report that did
not pass begins with the first title, that is with other letters than the success line, so
it is not mistaken for that line and is not empty (`Report.Consistent.head?_text`). -/

namespace DocCoverage

namespace Report

/-- The status of a report is that of its results, and their titles are titles of
categories. -/
structure Consistent (report : Report) : Prop where
  status_iff : report.status = .passed ↔ ∀ result ∈ report.results, result.missing = []
  titles : ∀ result ∈ report.results, ∃ path, result.title = result.category.title path

/-- The results with gaps are those that miss something. -/
theorem failures_eq (report : Report) :
    report.failures = report.results.filter fun result => result.missing ≠ [] := by
  refine List.filter_congr fun result _ => Bool.eq_iff_iff.mpr ?_
  rw [decide_eq_true_iff, Bool.not_eq_true', Ne, ← CategoryResult.passed_iff, Bool.not_eq_true]

theorem failures_eq_nil_iff (report : Report) :
    report.failures = [] ↔ ∀ result ∈ report.results, result.missing = [] := by
  rw [failures, List.filter_eq_nil_iff]
  simp only [← CategoryResult.passed_iff, Bool.not_eq_true', Bool.not_eq_false]

/-- The text of a report that passed is the success line. -/
theorem text_of_passed {report : Report} (h : report.status = .passed) :
    report.text = successLine ++ "\n" := by
  rw [text, if_pos (passed_iff.mpr h)]

/-- The text of a report that did not pass is made of the titles and the lines of its
results with gaps. -/
theorem text_of_failed {report : Report} (h : report.status ≠ .passed) :
    report.text = String.join (report.failures.map CategoryResult.text) := by
  rw [text, if_neg (mt passed_iff.mp h)]

namespace Consistent

variable {report : Report}

theorem failures_eq_nil_iff (h : report.Consistent) :
    report.failures = [] ↔ report.status = .passed := by
  rw [h.status_iff, report.failures_eq_nil_iff]

/-- The text of a report that did not pass begins as its first title does. -/
theorem head?_text (h : report.Consistent) (hfailed : report.status ≠ .passed) :
    report.text.toList.head? = some 'M' := by
  rw [text_of_failed hfailed]
  cases hfailures : report.failures with
  | nil => exact absurd (h.failures_eq_nil_iff.mp hfailures) hfailed
  | cons result rest =>
    have hmem : result ∈ report.results := by
      have hfirst : result ∈ report.failures := hfailures ▸ List.mem_cons_self
      exact (List.mem_filter.mp hfirst).1
    obtain ⟨path, htitle⟩ := h.titles result hmem
    rw [List.map_cons, String.join_cons, CategoryResult.text, htitle, Category.title]
    simp

/-- **The success line is the text of the reports that passed.** -/
theorem text_eq_success_iff (h : report.Consistent) :
    report.text = successLine ++ "\n" ↔ report.status = .passed := by
  refine ⟨fun htext => ?_, text_of_passed⟩
  by_contra hfailed
  have hhead := h.head?_text hfailed
  rw [htext] at hhead
  simp [successLine] at hhead

end Consistent
end Report

/-- **What a check returns is consistent.** -/
theorem Check.consistent_of_run {matcher : Matcher} {disk : Disk} {layout : Layout}
    {documents : Documents} {mode : Mode} {report : Report}
    (h : (run matcher disk layout documents mode).result = .ok report) : report.Consistent := by
  obtain ⟨results, hresults, rfl⟩ := run_ok_iff.mp h
  refine ⟨status_reportOf_iff results, fun result hmem => ?_⟩
  obtain ⟨category, identifiers, -, -, rfl⟩ := exists_collected_of_mem hresults hmem
  exact ⟨_, rfl⟩

namespace Program

/-- **All channels of a check agree.**  For every disk, layout and mode under which a check
ends without a fault, it does so with the same exit code for programs and for people, and
what it prints for programs reads back as one report.  These say the same: the exit code is
0, the verdict of the JSON is true, its status is the word for passed, no result of the
report has gaps, and the text for people is the success line.  Otherwise that text is made,
in the order of the report, of a title and a line for each missing identifier of the results
that miss any, and of nothing else, and it is not empty. -/
theorem outcome_channels_agree (matcher : Matcher) (disk : Disk) (layout : Layout)
    (keepGoing : Bool) {json : Bool} {printed : Printed}
    (h : (check matcher disk layout json keepGoing).result = .ok printed) :
    ∃ exit forPrograms forPeople value report,
      (check matcher disk layout true keepGoing).result = .ok ⟨exit, forPrograms⟩ ∧
      (check matcher disk layout false keepGoing).result = .ok ⟨exit, forPeople⟩ ∧
      Json.read? forPrograms = some value ∧
      (value.member? "data").bind Report.format.ofJson? = some report ∧
      List.TFAE [
        exit = 0,
        value.member? "ok" = some (.flag true),
        ((value.member? "data").bind (·.member? "status")).bind Json.text? = some "passed",
        report.failures = [],
        forPeople = Report.successLine ++ "\n"] ∧
      (exit ≠ 0 →
        forPeople = String.join
          ((report.results.filter fun result => result.missing ≠ []).map fun result =>
            result.title ++ "\n" ++
              String.join (result.missing.map fun identifier => "- " ++ identifier ++ "\n")) ∧
        forPeople ≠ "") := by
  obtain ⟨documents, report, hload, hrun, -⟩ := check_ok_iff.mp h
  have hconsistent : report.Consistent := Check.consistent_of_run hrun
  have hcheck : ∀ form, (check matcher disk layout form keepGoing).result =
      .ok (printedReport form report) :=
    fun form => check_ok_iff.mpr ⟨documents, report, hload, hrun, rfl⟩
  have hread : Json.read? (report.printed true) = some (Json.envelope report.passed report.json) :=
    Json.read?_of_document (Json.document_pretty _)
  have hdata : (Json.envelope report.passed report.json).member? "data" = some report.json := by
    simp [Json.envelope]
  have hexit : (printedReport true report).exit = 0 ↔ report.status = .passed :=
    exit_printedReport_iff true report
  refine ⟨(printedReport true report).exit, _, report.text, _, report, hcheck true, hcheck false,
    hread, ?_, ?_, fun hfailed => ?_⟩
  · rw [hdata]
    exact Report.format.ofJson?_json report
  · -- each of them says that the status is passed
    refine List.tfae_of_forall (report.status = .passed) _ ?_
    simp only [List.forall_mem_cons]
    refine ⟨hexit, ?_, ?_, hconsistent.failures_eq_nil_iff, hconsistent.text_eq_success_iff,
      List.forall_mem_nil _⟩
    · rw [← Report.passed_iff]
      simp [Json.envelope]
    · rw [hdata]
      cases hstatus : report.status <;> simp [Report.json, Json.text?, Status.id, hstatus]
  · have hstatus : report.status ≠ .passed := mt hexit.mpr hfailed
    refine ⟨?_, fun hempty => ?_⟩
    · rw [Report.text_of_failed hstatus, report.failures_eq]
      rfl
    · have hhead := hconsistent.head?_text hstatus
      simp [hempty] at hhead

/-- A check of empty documents fails in all channels. -/
theorem channels_undocumented :
    (check .standard undocumented.disk (.standard (.ofString ".")) true false).result =
        .ok ⟨1, undocumentedReport.printed true⟩ ∧
      ∃ (forPeople : String) (report : Report),
        (check .standard undocumented.disk (.standard (.ofString ".")) false false).result =
          .ok ⟨1, forPeople⟩ ∧
        report.failures ≠ [] ∧ forPeople ≠ Report.successLine ++ "\n" ∧ forPeople ≠ "" := by
  obtain ⟨exit, forPrograms, forPeople, value, report, hprograms, hpeople, -, -, hagree, htext⟩ :=
    outcome_channels_agree .standard undocumented.disk (.standard (.ofString ".")) false
      (check_undocumented true)
  obtain ⟨rfl, -⟩ : 1 = exit ∧ _ :=
    Printed.mk.inj (Except.ok.inj ((check_undocumented true).symm.trans hprograms))
  have hfailed : (1 : Nat) ≠ 0 := by omega
  exact ⟨check_undocumented true, forPeople, report, hpeople,
    mt (hagree.out 0 3).mpr hfailed, mt (hagree.out 0 4).mpr hfailed, (htext hfailed).2⟩

end Program
end DocCoverage
