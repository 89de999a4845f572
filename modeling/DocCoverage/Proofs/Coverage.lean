import DocCoverage.Proofs.Outcome

/-! # A check passes exactly when everything is documented

The inventory collects all categories at once, a check collects them one by one
and may stop early.  Both ask the same collectors (`Inventory.collect_ok_iff`), so
a check can be judged by the inventory: it ends with exit code 0 exactly when the
documents load, the inventory can be collected and each of its identifiers is found
where it belongs (`exit_zero_iff_covered`).  No gap, no category left out, no unreadable
input and no refused identifier hides behind that exit code, in either mode. -/

namespace DocCoverage

/-- An empty source declares no names. -/
theorem declaredNames_empty (beginning : String) : declaredNames "" beginning = [] := by
  rw [declaredNames, show "".toList = [] from rfl, Declaration.all_nil]
  rfl

/-- A policies file without content is no fault: there are no policies then. -/
theorem Collect.policies_empty {disk : Disk} {layout : Layout}
    (hread : disk.readText (layout.resolve layout.policiesFile) = .ok "") :
    (Collect.policies disk layout).result = .ok [] := by
  simp only [policies, hread, Traced.ofDisk, Traced.result_bind, Except.bind,
    declaredNames_empty]
  rfl

/-- Where the policies file has no content, the inventory is that of the other two
categories. -/
theorem Inventory.collect_of_empty_policies {disk : Disk} {layout : Layout}
    {controllers commands : List String}
    (hread : disk.readText (layout.resolve layout.policiesFile) = .ok "")
    (hcontrollers : (Collect.controllers disk layout).result = .ok controllers)
    (hcommands : (Collect.criticalCommands disk layout).result = .ok commands) :
    (collect disk layout).result = .ok ⟨controllers, [], commands⟩ := by
  refine collect_ok_iff.mpr fun category => ?_
  cases category with
  | controllers => exact hcontrollers
  | policies => exact Collect.policies_empty hread
  | criticalCommands => exact hcommands

/-- A disk without an overlay, on which every file is empty and every directory as well. -/
def Disk.bare : Disk where
  leadsSomewhere _ := false
  readText _ := .ok ""
  entries _ := .ok []

/-- A disk without sources, with empty documents and with an overlay. -/
def Disk.pinningBy (overlay : String) : Disk where
  leadsSomewhere path := path = .ofString "./docdrift.toml"
  readText path := if path = .ofString "./docdrift.toml" then .ok overlay else .ok ""
  entries _ := .ok []

/-- The standard layout with other pinned commands. -/
def Layout.pinning (names : List String) : Layout :=
  { standard (.ofString ".") with pinnedCommands := names }

/-- On the bare disk nothing is expected but what is pinned. -/
theorem Inventory.collect_bare (name : String) :
    (collect Disk.bare (.pinning [name])).result = .ok ⟨[], [], [name]⟩ :=
  collect_of_empty_policies rfl rfl rfl

/-- A pinned command that is refused ends a check there, whatever the documents say. -/
theorem Check.run_bare_of_refused {matcher : Matcher} {name refusal : String}
    (h : matcher.refusal? name = some refusal) (documents : Documents) :
    (run matcher Disk.bare (.pinning [name]) documents .keepGoing).result =
      .error (.pattern refusal) := by
  have hcollect := Inventory.collect_ok_iff.mp (Inventory.collect_bare name)
  have hrefused : matcher.accept [name] = .error (.pattern refusal) :=
    Matcher.accept_cons_of_refused h []
  rw [result_run]
  simp only [Category.order, result_evaluateAll_cons, result_evaluate, hcollect, Except.bind,
    Inventory.identifiers, hrefused]
  rfl

/-- Each identifier of the inventory is found in the document of its category. -/
def Inventory.CoveredBy (inventory : Inventory) (matcher : Matcher) (documents : Documents) :
    Prop :=
  ∀ category, ∀ identifier ∈ inventory.identifiers category,
    matcher.finds (documents.text category.document) identifier = .ok true

/-- Both documents load, the inventory can be collected, and the documents cover it. -/
def Covered (matcher : Matcher) (disk : Disk) (layout : Layout) : Prop :=
  ∃ documents inventory, (Documents.load disk layout).result = .ok documents ∧
    (Inventory.collect disk layout).result = .ok inventory ∧
      inventory.CoveredBy matcher documents

/-- All categories pass exactly when the inventory is covered. -/
theorem Check.passes_iff_coveredBy (matcher : Matcher) (disk : Disk) (layout : Layout)
    (documents : Documents) :
    (∀ category, ∃ result, (evaluate matcher disk layout documents category).result = .ok result ∧
        result.passed = true) ↔
      ∃ inventory, (Inventory.collect disk layout).result = .ok inventory ∧
        inventory.CoveredBy matcher documents := by
  have hcategory : ∀ category, (∃ result,
      (evaluate matcher disk layout documents category).result = .ok result ∧
        result.passed = true) ↔
        ∃ identifiers, (Collect.ofCategory disk layout category).result = .ok identifiers ∧
          ∀ identifier ∈ identifiers,
            matcher.finds (documents.text category.document) identifier = .ok true := by
    intro category
    simp only [Matcher.finds_true_iff]
    constructor
    · rintro ⟨result, hresult, hpassed⟩
      obtain ⟨identifiers, hcollect, haccepts, rfl⟩ := evaluate_ok_iff.mp hresult
      have hmentions := (passed_resultOf _ _ _ _).mp hpassed
      exact ⟨identifiers, hcollect, fun identifier hmem =>
        ⟨haccepts identifier hmem, hmentions identifier hmem⟩⟩
    · rintro ⟨identifiers, hcollect, hall⟩
      refine ⟨_, evaluate_ok_iff.mpr ⟨identifiers, hcollect, ?_, rfl⟩,
        (passed_resultOf _ _ _ _).mpr ?_⟩
      · exact fun identifier hmem => (hall identifier hmem).1
      · exact fun identifier hmem => (hall identifier hmem).2
  constructor
  · intro h
    obtain ⟨controllers, hcontrollers, coveredControllers⟩ :=
      (hcategory .controllers).mp (h .controllers)
    obtain ⟨policies, hpolicies, coveredPolicies⟩ := (hcategory .policies).mp (h .policies)
    obtain ⟨commands, hcommands, coveredCommands⟩ :=
      (hcategory .criticalCommands).mp (h .criticalCommands)
    refine ⟨⟨controllers, policies, commands⟩, Inventory.collect_ok_iff.mpr ?_, ?_⟩
    · intro category
      cases category <;> assumption
    · intro category
      cases category <;> assumption
  · rintro ⟨inventory, hcollect, hcovered⟩ category
    exact (hcategory category).mpr
      ⟨inventory.identifiers category, Inventory.collect_ok_iff.mp hcollect category,
        hcovered category⟩

namespace Program

/-- A check under a layout ends with success exactly when everything is covered. -/
theorem exitOf_check_iff_covered (matcher : Matcher) (disk : Disk) (layout : Layout)
    (json keepGoing : Bool) :
    exitOf (check matcher disk layout json keepGoing).result = success ↔
      Covered matcher disk layout := by
  rw [check_success_iff]
  simp only [Check.passes_iff_coveredBy, Covered, exists_and_left]

/-- What is asked for by anything but the inventory is a check. -/
theorem perform_of_ne_inventory {invocation : Invocation}
    (hcheck : invocation.command ≠ some .inventory) (matcher : Matcher) (disk : Disk)
    (layout : Layout) : ∃ keepGoing,
      perform matcher disk layout invocation = check matcher disk layout invocation.json keepGoing := by
  unfold perform
  split
  · exact ⟨false, rfl⟩
  · next keepGoing _ => exact ⟨keepGoing, rfl⟩
  · next h => exact absurd h hcheck

/-- **Exit code 0 means covered.**  Whatever the mode, a check ends with exit code 0
exactly when its layout loads, both documents load, the inventory of the same disk
can be collected, and each identifier of each category is found in the document of
its category.  The program ends with it exactly when, besides, its log can be set up. -/
theorem exit_zero_iff_covered (libraries : Libraries) (disk : Disk) {args : List String}
    {invocation : Invocation} (hread : Invocation.read args = .ok invocation)
    (hcheck : invocation.command ≠ some .inventory) (logSetting : Option String) :
    (∀ layout, exitOf (perform libraries.matcher disk layout invocation).result = 0 ↔
      ∃ documents inventory, (Documents.load disk layout).result = .ok documents ∧
        (Inventory.collect disk layout).result = .ok inventory ∧
          ∀ category, ∀ identifier ∈ inventory.identifiers category,
            libraries.matcher.finds (documents.text category.document) identifier = .ok true) ∧
      ((run libraries disk args logSetting).exit = 0 ↔ Filter.SetsUp logSetting ∧
        ∃ layout documents inventory,
          (Layout.load disk (.ofString invocation.repo)
            (invocation.config.map .ofString)).result = .ok layout ∧
          (Documents.load disk layout).result = .ok documents ∧
          (Inventory.collect disk layout).result = .ok inventory ∧
            ∀ category, ∀ identifier ∈ inventory.identifiers category,
              libraries.matcher.finds (documents.text category.document) identifier =
                .ok true) := by
  have hperform : ∀ layout, exitOf (perform libraries.matcher disk layout invocation).result = 0 ↔
      Covered libraries.matcher disk layout := by
    intro layout
    obtain ⟨keepGoing, hp⟩ := perform_of_ne_inventory hcheck libraries.matcher disk layout
    rw [hp]
    exact exitOf_check_iff_covered libraries.matcher disk layout invocation.json keepGoing
  refine ⟨hperform, ?_⟩
  by_cases hlog : Filter.SetsUp logSetting
  · rw [and_iff_right hlog, exit_run libraries disk hread hlog, invoke, Traced.result_bind]
    cases (Layout.load disk (.ofString invocation.repo)
        (invocation.config.map .ofString)).result with
    | error fault => simp [Except.bind, exitOf, failure]
    | ok layout => simpa [Except.bind, Covered, Inventory.CoveredBy] using hperform layout
  · rw [run_of_torn libraries disk hread hlog]
    exact iff_of_false (by decide) fun h => hlog h.1

/-- A disk with one controller, no policies and no commands but the pinned ones, whose
documents mention them all. -/
def documented : Disk where
  leadsSomewhere _ := false
  readText path :=
    if path = .ofString "./docs/Api-Doc.md" then .ok "| `WidgetController` |"
    else if path = .ofString "./docs/Application-Doc.md" then
      .ok ("\n".intercalate (Layout.standard (.ofString ".")).pinnedCommands)
    else if path = .ofString "./src/TowerOps.Api/Authorization/ApiAuthorizationPolicies.cs" then
      .ok ""
    else .error .notFound
  entries path :=
    if path = .ofString "./src/TowerOps.Api/Controllers" then
      .ok [(Text.encode "WidgetController.cs", .file)]
    else .ok []

/-- Its inventory. -/
def documentedInventory : Inventory where
  controllers := ["WidgetController"]
  policies := []
  criticalCommands :=
    ["AcceptByCustomerCommand", "CreateApprovalRecordCommand", "LogAuditEntryCommand",
      "RejectByCustomerCommand", "SubmitForCustomerAcceptanceCommand"]

theorem collect_documented :
    (Inventory.collect documented (.standard (.ofString "."))).result =
      .ok documentedInventory :=
  Inventory.collect_of_empty_policies rfl rfl rfl

/-- Everything on that disk is covered. -/
theorem covered_documented : Covered .standard documented (.standard (.ofString ".")) := by
  refine ⟨_, documentedInventory, rfl, collect_documented, ?_⟩
  simp only [Inventory.CoveredBy, Matcher.finds_true_iff]
  intro category
  cases category <;> decide +kernel

/-- So a check of it that goes on ends with exit code 0. -/
theorem exit_zero_documented :
    Invocation.read ["check", "--keep-going"] =
        .ok ⟨false, false, ".", none, some (.check true)⟩ ∧
      some (.check true) ≠ some Subcommand.inventory ∧
      (run .standard documented ["check", "--keep-going"] none).exit = 0 := by
  refine ⟨rfl, by decide, ?_⟩
  refine (@exit_zero_iff_covered .standard documented ["check", "--keep-going"] _ rfl
    (by decide) none).2.mpr ⟨⟨_, rfl⟩, .standard (.ofString "."), ?_⟩
  obtain ⟨documents, inventory, hload, hcollect, hcovered⟩ := covered_documented
  exact ⟨documents, inventory, rfl, hload, hcollect, hcovered⟩

end Program
end DocCoverage
