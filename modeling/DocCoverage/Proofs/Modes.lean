import DocCoverage.Proofs.Arguments
import DocCoverage.Proofs.Coverage

/-! # Stopping at the first gap and going on

A check that goes on finds all gaps, one that stops finds the first.  The two never
contradict each other: where the longer one succeeds the shorter one returns the
beginning of the same results, and where the shorter one fails the longer one fails
in the same way.  Only behind a gap may the longer one still fail, and both runs end
with the same exit code even then (`modes_agree`). -/

namespace DocCoverage

namespace Check

variable {matcher : Matcher} {disk : Disk} {layout : Layout} {documents : Documents}

/-- A check returns the report of what its categories returned. -/
theorem run_ok_iff {mode : Mode} {report : Report} :
    (run matcher disk layout documents mode).result = .ok report ↔
      ∃ results,
        (evaluateAll matcher disk layout documents mode Category.order).result = .ok results ∧
          reportOf results = report := by
  rw [result_run]
  exact map_eq_ok_iff

/-- A check fails as one of its categories does. -/
theorem run_error_iff {mode : Mode} {fault : Fault} :
    (run matcher disk layout documents mode).result = .error fault ↔
      (evaluateAll matcher disk layout documents mode Category.order).result = .error fault := by
  rw [result_run]
  exact map_eq_error_iff

/-- What a check that goes on returns where the inventory is collected and nothing of it is
refused. -/
theorem run_keepGoing_of_inventory {inventory : Inventory}
    (hcollect : (Inventory.collect disk layout).result = .ok inventory)
    (haccepts : ∀ category, matcher.Accepts (inventory.identifiers category))
    (documents : Documents) :
    (run matcher disk layout documents .keepGoing).result =
      .ok (reportOf (Category.order.map fun category =>
        resultOf layout documents category (inventory.identifiers category))) := by
  have hcategory := Inventory.collect_ok_iff.mp hcollect
  exact run_ok_iff.mpr ⟨_, evaluateAll_keepGoing_of_collected
    (fun category _ => hcategory category) (fun category _ => haccepts category) documents, rfl⟩

/-- A check that stopped early stopped at a gap. -/
theorem last_fails_of_length_lt {results : List CategoryResult}
    (h : (evaluateAll matcher disk layout documents .failFast Category.order).result = .ok results)
    (hlt : results.length < Category.order.length) :
    ∃ last, results.getLast? = some last ∧ last.passed = false := by
  have hgap : ¬results.all CategoryResult.passed = true := by
    intro hall
    have hlength := congrArg List.length (categories_of_evaluateAll_failFast_passed h hall)
    rw [List.length_map] at hlength
    omega
  cases hlast : results.getLast? with
  | none =>
    rw [List.getLast?_eq_none_iff.mp hlast] at hgap
    exact absurd rfl hgap
  | some last =>
    obtain ⟨before, rfl⟩ := List.getLast?_eq_some_iff.mp hlast
    refine ⟨last, rfl, Bool.eq_false_iff.mpr fun hpassed => hgap ?_⟩
    have hbefore := passed_of_mem_dropLast h
    rw [List.dropLast_concat] at hbefore
    rw [List.all_append, List.all_eq_true.mpr hbefore]
    simp [hpassed]

/-- A check evaluates the first category at least. -/
theorem results_ne_nil {results : List CategoryResult}
    (h : (evaluateAll matcher disk layout documents .failFast Category.order).result =
      .ok results) :
    results ≠ [] := by
  obtain ⟨result, -, ⟨-, rfl⟩ | ⟨-, more, -, rfl⟩⟩ := evaluateAll_failFast_cons_ok h <;> simp

end Check

namespace Program

/-- Both modes end with the same exit code. -/
theorem exitOf_check_mode (matcher : Matcher) (disk : Disk) (layout : Layout) (json : Bool) :
    exitOf (check matcher disk layout json true).result =
      exitOf (check matcher disk layout json false).result := by
  have hiff : exitOf (check matcher disk layout json true).result = success ↔
      exitOf (check matcher disk layout json false).result = success := by
    rw [exitOf_check_iff_covered, exitOf_check_iff_covered]
  rcases exitOf_check matcher disk layout json true with hlong | hlong
  · rw [hlong, hiff.mp hlong]
  · rcases exitOf_check matcher disk layout json false with hshort | hshort
    · rw [hiff.mpr hshort, hshort]
    · rw [hlong, hshort]

end Program

/-- **The two modes agree.**  For every disk, layout and pair of documents:
a check that goes on and succeeds returns what one that stops returns, and more only
behind the first gap; a check that stops and fails fails as one that goes on; a check
that stops returns results in the order of the categories, of which only the last may
have gaps, and has unless all categories were evaluated.  As processes with the same
options, and with log settings that can be set up or cannot alike, the program without a
subcommand, `check` and `check --keep-going` end with the same exit code, and the first two
print the same. -/
theorem modes_agree (libraries : Libraries) (disk : Disk) (layout : Layout)
    (documents : Documents) :
    (∀ report, (Check.run libraries.matcher disk layout documents .keepGoing).result = .ok report →
      ∃ short, (Check.run libraries.matcher disk layout documents .failFast).result = .ok short ∧
        short.status = report.status ∧ short.results = Check.uptoGap report.results) ∧
    (∀ fault, (Check.run libraries.matcher disk layout documents .failFast).result = .error fault →
      (Check.run libraries.matcher disk layout documents .keepGoing).result = .error fault) ∧
    (∀ report, (Check.run libraries.matcher disk layout documents .failFast).result = .ok report →
      report.results ≠ [] ∧
        report.results.map CategoryResult.category <+: Category.order ∧
        (∀ result ∈ report.results.dropLast, result.passed = true) ∧
        (report.results.length < 3 →
          ∃ last, report.results.getLast? = some last ∧ last.passed = false)) ∧
    (∀ (invocation : Invocation) (bare plain going : List String) (log₀ log₁ log₂ : Option String),
      Invocation.read bare = .ok { invocation with command := none } →
      Invocation.read plain = .ok { invocation with command := some (.check false) } →
      Invocation.read going = .ok { invocation with command := some (.check true) } →
      (Filter.SetsUp log₁ ↔ Filter.SetsUp log₀) → (Filter.SetsUp log₂ ↔ Filter.SetsUp log₀) →
        (Program.run libraries disk plain log₁).exit = (Program.run libraries disk bare log₀).exit ∧
          (Program.run libraries disk going log₂).exit =
            (Program.run libraries disk bare log₀).exit ∧
          (Program.run libraries disk plain log₁).stdout =
            (Program.run libraries disk bare log₀).stdout) ∧
    (∀ (invocation : Invocation) (globals : List String),
      Invocation.read globals = .ok { invocation with command := none } → "--" ∉ globals →
        Invocation.read (globals ++ ["check"]) =
            .ok { invocation with command := some (.check false) } ∧
          Invocation.read (globals ++ ["check", "--keep-going"]) =
            .ok { invocation with command := some (.check true) }) := by
  refine ⟨?_, ?_, ?_, ?_, ?_⟩
  · intro report h
    obtain ⟨results, hresults, rfl⟩ := Check.run_ok_iff.mp h
    exact ⟨Check.reportOf (Check.uptoGap results),
      Check.run_ok_iff.mpr ⟨_, Check.evaluateAll_failFast_of_keepGoing hresults, rfl⟩,
      Check.status_reportOf_uptoGap results, rfl⟩
  · intro fault h
    exact Check.run_error_iff.mpr
      (Check.evaluateAll_keepGoing_of_failFast_error (Check.run_error_iff.mp h))
  · intro report h
    obtain ⟨results, hresults, rfl⟩ := Check.run_ok_iff.mp h
    exact ⟨Check.results_ne_nil hresults, Check.evaluateAll_failFast_categories hresults,
      Check.passed_of_mem_dropLast hresults, Check.last_fails_of_length_lt hresults⟩
  · intro invocation bare plain going log₀ log₁ log₂ hbare hplain hgoing hlog₁ hlog₂
    -- all three load the same layout, and under it the first two take the same steps
    have hinvoke : ∀ command, (Program.invoke libraries.matcher disk
        { invocation with command := command }).result =
          (Layout.load disk (.ofString invocation.repo)
            (invocation.config.map .ofString)).result.bind fun layout =>
              (Program.perform libraries.matcher disk layout
                { invocation with command := command }).result :=
      fun command => Traced.result_bind _ _
    refine ⟨Program.exit_congr libraries hplain hbare hlog₁ rfl,
      Program.exit_congr libraries hgoing hbare hlog₂ ?_,
      Program.stdout_congr libraries hplain hbare hlog₁ rfl⟩
    rw [hinvoke, hinvoke]
    cases (Layout.load disk (.ofString invocation.repo)
        (invocation.config.map .ofString)).result with
    | error fault => rfl
    | ok loaded => exact Program.exitOf_check_mode libraries.matcher disk loaded invocation.json
  · intro invocation globals hread hrest
    exact @Invocation.read_append_check globals { invocation with command := none }
      hread rfl hrest

/-- A disk with one controller and two documents without a word in them; all else is as on
another disk. -/
def wordless (rest : Disk) : Disk where
  leadsSomewhere := rest.leadsSomewhere
  readText path :=
    if path = .ofString "./docs/Api-Doc.md" ∨ path = .ofString "./docs/Application-Doc.md" then
      .ok ""
    else rest.readText path
  entries path :=
    if path = .ofString "./src/TowerOps.Api/Controllers" then
      .ok [(Text.encode "WidgetController.cs", .file)]
    else rest.entries path

theorem collect_wordless_documented :
    (Inventory.collect (wordless Program.documented) (.standard (.ofString "."))).result =
      .ok Program.documentedInventory :=
  Inventory.collect_of_empty_policies rfl rfl rfl

/-- Of the documented disk without the words, a check that goes on returns three results; one
that stops returns the first of them, which has a gap.  The processes end alike. -/
theorem modes_agree_wordless :
    ∃ report short,
      (Check.run .standard (wordless Program.documented) (.standard (.ofString ".")) ⟨"", ""⟩
        .keepGoing).result = .ok report ∧ report.results.length = 3 ∧
      (Check.run .standard (wordless Program.documented) (.standard (.ofString ".")) ⟨"", ""⟩
        .failFast).result = .ok short ∧ short.status = .failed ∧
      short.results.map CategoryResult.missing = [["WidgetController"]] ∧
      (Program.run .standard (wordless Program.documented) ["check", "--keep-going"] none).exit =
        (Program.run .standard (wordless Program.documented) [] none).exit := by
  have haccepts : ∀ category,
      Matcher.standard.Accepts (Program.documentedInventory.identifiers category) := by
    intro category
    cases category <;> decide +kernel
  have hgoing := Check.run_keepGoing_of_inventory collect_wordless_documented haccepts ⟨"", ""⟩
  obtain ⟨hshort, -, -, hprocess, -⟩ := modes_agree .standard (wordless Program.documented)
    (.standard (.ofString ".")) ⟨"", ""⟩
  obtain ⟨short, hrun, hstatus, hfirst⟩ := hshort _ hgoing
  obtain ⟨-, hexit, -⟩ := hprocess ⟨false, false, ".", none, none⟩ [] ["check"]
    ["check", "--keep-going"] none none none rfl rfl rfl Iff.rfl Iff.rfl
  refine ⟨_, short, hgoing, rfl, hrun, ?_, ?_, hexit⟩
  · rw [hstatus]
    rfl
  · rw [hfirst]
    rfl

end DocCoverage
