import DocCoverage.Program
import DocCoverage.Proofs.Evaluation

/-! # How a run ends

A run whose log can be set up ends with an exit code and with what it printed, or with
a fault.  Both are read off the result of its steps (`exitOf`, `stdoutOf`); the log has
no part in them, so they do not depend on the filter.  A run whose log cannot be set up
takes no step (`run_of_torn`).  A run that checks ends with success exactly when every
category passes (`check_success_iff`), in either mode. -/

namespace DocCoverage

/-- A log can be set up under a setting: none of the directives that are read is torn. -/
def Filter.SetsUp (setting : Option String) : Prop := ∃ filter, ofSetting? setting = some filter

theorem Filter.setsUp_iff {setting : Option String} :
    SetsUp setting ↔ ∀ written, setting = some written → read written ≠ .error .torn := by
  cases setting with
  | none => exact iff_of_true ⟨_, rfl⟩ nofun
  | some written =>
    simp only [SetsUp, ofSetting?, Option.some.injEq, forall_eq']
    rcases read written with flaw | filter
    · cases flaw <;> simp
    · simp

namespace Program

/-- The exit code by how the steps of a run end. -/
def exitOf : Except Fault Printed → Nat
  | .ok printed => printed.exit
  | .error _ => failure

/-- What is printed by how the steps of a run end. -/
def stdoutOf : Except Fault Printed → String
  | .ok printed => printed.stdout
  | .error _ => ""

section
variable (libraries : Libraries) (disk : Disk) {args : List String} {invocation : Invocation}
  {logSetting : Option String}

theorem exit_run (hread : Invocation.read args = .ok invocation)
    (hlog : Filter.SetsUp logSetting) :
    (run libraries disk args logSetting).exit =
      exitOf (invoke libraries.matcher disk invocation).result := by
  obtain ⟨filter, hfilter⟩ := hlog
  simp only [run, hread, hfilter]
  cases (invoke libraries.matcher disk invocation).result <;> rfl

theorem stdout_run (hread : Invocation.read args = .ok invocation)
    (hlog : Filter.SetsUp logSetting) :
    (run libraries disk args logSetting).stdout =
      stdoutOf (invoke libraries.matcher disk invocation).result := by
  obtain ⟨filter, hfilter⟩ := hlog
  simp only [run, hread, hfilter]
  cases (invoke libraries.matcher disk invocation).result <;> rfl

/-- **A run whose log cannot be set up takes no step**, whatever its arguments ask for. -/
theorem run_of_torn (hread : Invocation.read args = .ok invocation)
    (hlog : ¬Filter.SetsUp logSetting) :
    run libraries disk args logSetting = ⟨crash, "", []⟩ := by
  have hnone : Filter.ofSetting? logSetting = none :=
    Option.eq_none_iff_forall_ne_some.mpr fun filter hfilter => hlog ⟨filter, hfilter⟩
  simp only [run, hread, hnone]

variable {disk} {other : Disk} {args' : List String} {invocation' : Invocation}
  {logSetting' : Option String}

/-- Two processes end with the same exit code if their steps do, and if both logs can be set up
or neither. -/
theorem exit_congr (hread : Invocation.read args = .ok invocation)
    (hread' : Invocation.read args' = .ok invocation')
    (hlog : Filter.SetsUp logSetting ↔ Filter.SetsUp logSetting')
    (h : exitOf (invoke libraries.matcher disk invocation).result =
      exitOf (invoke libraries.matcher other invocation').result) :
    (run libraries disk args logSetting).exit = (run libraries other args' logSetting').exit := by
  by_cases hsetsUp : Filter.SetsUp logSetting
  · rw [exit_run libraries disk hread hsetsUp, exit_run libraries other hread' (hlog.mp hsetsUp), h]
  · rw [run_of_torn libraries disk hread hsetsUp,
      run_of_torn libraries other hread' (mt hlog.mpr hsetsUp)]

/-- And they print the same if their steps do. -/
theorem stdout_congr (hread : Invocation.read args = .ok invocation)
    (hread' : Invocation.read args' = .ok invocation')
    (hlog : Filter.SetsUp logSetting ↔ Filter.SetsUp logSetting')
    (h : stdoutOf (invoke libraries.matcher disk invocation).result =
      stdoutOf (invoke libraries.matcher other invocation').result) :
    (run libraries disk args logSetting).stdout =
      (run libraries other args' logSetting').stdout := by
  by_cases hsetsUp : Filter.SetsUp logSetting
  · rw [stdout_run libraries disk hread hsetsUp,
      stdout_run libraries other hread' (hlog.mp hsetsUp), h]
  · rw [run_of_torn libraries disk hread hsetsUp,
      run_of_torn libraries other hread' (mt hlog.mpr hsetsUp)]

end

variable (matcher : Matcher) (disk : Disk)

/-- The mode that the option of a check stands for. -/
def modeOf (keepGoing : Bool) : Mode := if keepGoing then .keepGoing else .failFast

/-- What a check prints of its report, and the exit code that says whether it passed. -/
def printedReport (json : Bool) (report : Report) : Printed :=
  ⟨if report.passed then success else failure, report.printed json⟩

/-- A check loads the documents, evaluates the categories and prints the report. -/
theorem result_check (layout : Layout) (json keepGoing : Bool) :
    (check matcher disk layout json keepGoing).result =
      (Documents.load disk layout).result.bind fun documents =>
        (Check.run matcher disk layout documents (modeOf keepGoing)).result.map
          (printedReport json) := by
  rw [check, Traced.result_bind, Traced.result_report]
  show (Documents.load disk layout >>= _).result = _
  rw [Traced.result_bind]
  refine congrArg (Except.bind (Documents.load disk layout).result) ?_
  funext documents
  exact Traced.result_bind_pure _ _

variable {matcher disk} in
/-- A check that ends without a fault loaded the documents and printed the report of
them. -/
theorem check_ok_iff {layout : Layout} {json keepGoing : Bool} {printed : Printed} :
    (check matcher disk layout json keepGoing).result = .ok printed ↔
      ∃ documents report, (Documents.load disk layout).result = .ok documents ∧
        (Check.run matcher disk layout documents (modeOf keepGoing)).result = .ok report ∧
          printedReport json report = printed := by
  rw [result_check]
  simp only [bind_eq_ok_iff, map_eq_ok_iff, exists_and_left]

/-- The exit code of a report is success exactly when its status is passed. -/
theorem exit_printedReport_iff (json : Bool) (report : Report) :
    (printedReport json report).exit = success ↔ report.status = .passed := by
  rw [← Report.passed_iff, printedReport]
  cases report.passed <;> simp [success, failure]

/-- **A check ends with success exactly when both documents load and every category
passes.** -/
theorem check_success_iff (layout : Layout) (json keepGoing : Bool) :
    exitOf (check matcher disk layout json keepGoing).result = success ↔
      ∃ documents, (Documents.load disk layout).result = .ok documents ∧
        ∀ category, ∃ result,
          (Check.evaluate matcher disk layout documents category).result = .ok result ∧
            result.passed = true := by
  rw [result_check]
  cases hdocs : (Documents.load disk layout).result with
  | error fault => simp [Except.bind, exitOf, success, failure]
  | ok documents =>
    have hiff := @Check.evaluateAll_passes_iff matcher disk layout documents (modeOf keepGoing)
      Category.order
    rw [Category.forall_mem_order] at hiff
    simp only [Except.ok.injEq, exists_eq_left', ← hiff, Except.bind, Check.result_run]
    cases (Check.evaluateAll matcher disk layout documents (modeOf keepGoing)
      Category.order).result with
    | error fault => simp [Except.map, exitOf, success, failure]
    | ok results =>
      simpa [Except.map, exitOf, Check.reportOf] using
        exit_printedReport_iff json (Check.reportOf results)

/-- A check ends with one of two exit codes. -/
theorem exitOf_check (layout : Layout) (json keepGoing : Bool) :
    exitOf (check matcher disk layout json keepGoing).result = success ∨
      exitOf (check matcher disk layout json keepGoing).result = failure := by
  rw [result_check]
  cases (Documents.load disk layout).result with
  | error fault => exact Or.inr rfl
  | ok documents =>
    simp only [Except.bind]
    cases (Check.run matcher disk layout documents (modeOf keepGoing)).result with
    | error fault => exact Or.inr rfl
    | ok report => cases h : report.passed <;> simp [Except.map, exitOf, printedReport, h]

end Program
end DocCoverage
