import DocCoverage.Proofs.Inputs
import DocCoverage.Proofs.Modes
import Mathlib.Data.List.Dedup
import Mathlib.Data.List.Nodup
import Mathlib.Data.Prod.Basic

/-! # The inventory and the check agree

The inventory collects all categories before it says anything; a check collects a
category when its turn comes and says how many identifiers there were and which of
them are missing.  Both read the same inputs in the same order, but between them a check
looks for what it has collected.  As long as no identifier is refused there, one fails exactly
when the other does and in the same way (`Check.run_keepGoing_error_iff`); otherwise a check
may fail where the inventory has a result (`refused_though_listed`).  When they succeed, what
a check counts and misses in a category is found in the rows that the inventory lists there
(`Inventory.checked_of_mem`).

No row is listed twice (`Inventory.nodup_rows`), whatever the ways are in which a
command comes to be critical. -/

namespace DocCoverage

/-! ## Leaving out stages -/

section
variable {matcher : Matcher} {disk : Disk} {layout : Layout} {stages : List Stage} {fault : Fault}

/-- Stages that go well may be left out. -/
theorem firstFault_filter_iff {keep : Stage → Bool}
    (h : ∀ stage ∈ stages, keep stage = false → stage.GoesWell matcher disk layout) :
    FirstFault matcher disk layout (stages.filter keep) fault ↔
      FirstFault matcher disk layout stages fault := by
  induction stages with
  | nil => rfl
  | cons stage rest ih =>
    obtain ⟨hstage, hrest⟩ := List.forall_mem_cons.mp h
    rw [firstFault_cons_iff, List.filter_cons, ← ih hrest]
    cases hkeep : keep stage with
    | true => rw [if_pos rfl, firstFault_cons_iff]
    | false =>
      have hnone := Stage.goesWell_iff.mp (hstage hkeep) fault
      simp [hnone, hstage hkeep]

/-- The first fault of all stages is that of those that are kept, or of one that is left
out. -/
theorem FirstFault.of_filter (keep : Stage → Bool)
    (h : FirstFault matcher disk layout stages fault) :
    FirstFault matcher disk layout (stages.filter keep) fault ∨
      ∃ stage ∈ stages, keep stage = false ∧ stage.Fails matcher disk layout fault := by
  induction h with
  | @here stage rest fault hfails =>
    cases hkeep : keep stage with
    | true =>
      rw [List.filter_cons_of_pos hkeep]
      exact Or.inl (.here hfails)
    | false => exact Or.inr ⟨stage, List.mem_cons_self, hkeep, hfails⟩
  | @behind stage rest fault hwell _ ih =>
    rcases ih with hfirst | ⟨other, hmem, hother⟩
    · left
      cases hkeep : keep stage with
      | true =>
        rw [List.filter_cons_of_pos hkeep]
        exact .behind hwell hfirst
      | false => rwa [List.filter_cons_of_neg (by simp [hkeep])]
    · exact Or.inr ⟨other, List.mem_cons_of_mem _ hmem, hother⟩

/-- Whether a stage reads an input. -/
def Stage.isRead : Stage → Bool
  | read _ => true
  | search _ => false

/-- Without its searches a check that goes on goes through the stages of the inventory. -/
theorem Inventory.stages_eq :
    (Category.order.flatMap Category.stages).filter Stage.isRead = Inventory.inputs.map .read :=
  rfl

end

namespace Check

variable {matcher : Matcher} {disk : Disk} {layout : Layout}

/-- Each identifier that can be collected is accepted. -/
def SearchesAll (matcher : Matcher) (disk : Disk) (layout : Layout) : Prop :=
  ∀ category identifiers, (Collect.ofCategory disk layout category).result = .ok identifiers →
    matcher.Accepts identifiers

/-- A check that goes on fails exactly as the inventory does, unless an identifier is
refused. -/
theorem run_keepGoing_error_iff (hall : SearchesAll matcher disk layout) (documents : Documents)
    (fault : Fault) :
    (run matcher disk layout documents .keepGoing).result = .error fault ↔
      (Inventory.collect disk layout).result = .error fault := by
  rw [failsAs_run_keepGoing matcher disk layout documents fault,
    Inventory.failsAs_collect matcher disk layout fault, ← Inventory.stages_eq]
  refine (firstFault_filter_iff fun stage _ hstage => ?_).symm
  cases stage with
  | read input => cases hstage
  | search category => exact hall category

/-- A check that goes on and fails does so as the inventory, or because an identifier is
refused. -/
theorem fault_of_run_keepGoing {documents : Documents} {fault : Fault}
    (h : (run matcher disk layout documents .keepGoing).result = .error fault) :
    (Inventory.collect disk layout).result = .error fault ∨
      ∃ category identifiers identifier refusal,
        (Collect.ofCategory disk layout category).result = .ok identifiers ∧
        identifier ∈ identifiers ∧ matcher.refusal? identifier = some refusal ∧
          fault = .pattern refusal := by
  rw [Inventory.failsAs_collect matcher disk layout fault, ← Inventory.stages_eq]
  rw [failsAs_run_keepGoing matcher disk layout documents fault] at h
  refine (h.of_filter Stage.isRead).imp_right ?_
  rintro ⟨stage, -, hstage, hfails⟩
  rcases hfails with - | ⟨hcollect, hrefused⟩
  · cases hstage
  · obtain ⟨identifier, hmem, hrefusal⟩ := Matcher.exists_refused hrefused
    exact ⟨_, _, identifier, _, hcollect, hmem, hrefusal, rfl⟩

/-- A check that goes on does not succeed where the inventory fails. -/
theorem exists_fault_of_collect {documents : Documents} {fault : Fault}
    (h : (Inventory.collect disk layout).result = .error fault) :
    ∃ fault', (run matcher disk layout documents .keepGoing).result = .error fault' := by
  cases hrun : (run matcher disk layout documents .keepGoing).result with
  | error fault' => exact ⟨fault', rfl⟩
  | ok report =>
    have hwell := (failsAs_run_keepGoing matcher disk layout documents).ok_iff.mp ⟨report, hrun⟩
    rw [Inventory.failsAs_collect matcher disk layout fault, ← Inventory.stages_eq] at h
    exact absurd h (allGoWell_iff.mp (fun stage hmem => hwell stage (List.mem_of_mem_filter hmem))
      fault)

end Check

namespace Inventory

/-! ## The rows of a category -/

/-- The identifiers that the rows of an inventory give for a category. -/
def listed (inventory : Inventory) (category : Category) : List String :=
  (inventory.rows.filter (·.1 == category)).map Prod.snd

/-- The rows of a category are its identifiers, in order. -/
theorem listed_eq_identifiers (inventory : Inventory) (category : Category) :
    inventory.listed category = inventory.identifiers category := by
  have hown : (fun row : Category × String => row.1 == category) ∘ (category, ·) =
      fun _ => true := funext fun _ => beq_self_eq_true category
  have hother : ∀ other, other ≠ category →
      (fun row : Category × String => row.1 == category) ∘ (other, ·) = fun _ => false :=
    fun other h => funext fun _ => beq_false_of_ne h
  cases category <;>
    simp [listed, rows, Category.order, List.filter_map, hown, hother, Function.comp_def]

variable {matcher : Matcher} {disk : Disk} {layout : Layout} {inventory : Inventory}

theorem mem_rows {category : Category} {identifier : String} :
    (category, identifier) ∈ inventory.rows ↔ identifier ∈ inventory.identifiers category := by
  simp [rows, Category.mem_order]

theorem ascending_identifiers (h : (collect disk layout).result = .ok inventory)
    (category : Category) : (inventory.identifiers category).Pairwise (· < ·) :=
  Collect.ascending_ofCategory (collect_ok_iff.mp h category)

theorem nodup_identifiers (h : (collect disk layout).result = .ok inventory)
    (category : Category) : (inventory.identifiers category).Nodup :=
  (ascending_identifiers h category).imp fun hlt => String.ne_of_lt hlt

/-- **No row is listed twice.** -/
theorem nodup_rows (h : (collect disk layout).result = .ok inventory) : inventory.rows.Nodup := by
  refine List.nodup_flatMap.mpr ⟨fun category _ => ?_, ?_⟩
  · exact (nodup_identifiers h category).map (Prod.mk_right_injective category)
  · -- rows of different categories differ in their categories
    have hdisjoint : ∀ category other : Category, category ≠ other →
        List.Disjoint ((inventory.identifiers category).map (category, ·))
          ((inventory.identifiers other).map (other, ·)) := by
      intro category other hne row hrow hother
      obtain ⟨identifier, -, rfl⟩ := List.mem_map.mp hrow
      obtain ⟨identifier', -, heq⟩ := List.mem_map.mp hother
      exact hne (congrArg Prod.fst heq).symm
    have horder : Category.order.Nodup := by decide
    exact horder.imp fun hne => hdisjoint _ _ hne

/-- **What a check counts and misses is what the inventory lists**, in either mode. -/
theorem checked_of_mem (h : (collect disk layout).result = .ok inventory) {documents : Documents}
    {mode : Mode} {report : Report}
    (hrun : (Check.run matcher disk layout documents mode).result = .ok report)
    {result : CategoryResult} (hmem : result ∈ report.results) :
    result.checked = (inventory.listed result.category).length ∧
      result.missing = unmentioned (inventory.listed result.category)
        (documents.text result.category.document) := by
  obtain ⟨results, hresults, rfl⟩ := Check.run_ok_iff.mp hrun
  obtain ⟨category, identifiers, hcollect, -, rfl⟩ :=
    Check.exists_collected_of_mem hresults hmem
  obtain rfl : inventory.identifiers category = identifiers := by
    simpa [collect_ok_iff.mp h category] using hcollect
  rw [listed_eq_identifiers]
  exact ⟨rfl, rfl⟩

/-- The critical commands are those that are pinned or found in one of the directories. -/
theorem exists_mem_criticalCommands_iff (h : (collect disk layout).result = .ok inventory) :
    ∃ imported reported,
      (Collect.commands disk (layout.resolve layout.importsDir) layout.sourceExtension
        .recursive).result = .ok imported ∧
      (Collect.commands disk (layout.resolve layout.reportsDir) layout.sourceExtension
        .shallow).result = .ok reported ∧
      ∀ identifier, identifier ∈ inventory.identifiers .criticalCommands ↔
        identifier ∈ layout.pinnedCommands ∨ identifier ∈ imported ∨ identifier ∈ reported := by
  obtain ⟨imported, reported, himported, hreported, hunion⟩ :=
    Collect.criticalCommands_ok_iff.mp (collect_ok_iff.mp h .criticalCommands)
  refine ⟨imported, reported, himported, hreported, fun identifier => ?_⟩
  rw [← hunion]
  exact Collect.mem_criticalCommands

end Inventory

/-- When the inventory succeeds, a check that goes on does so exactly when none of the listed
identifiers is refused. -/
theorem Check.exists_run_keepGoing_iff {matcher : Matcher} {disk : Disk} {layout : Layout}
    {inventory : Inventory} (h : (Inventory.collect disk layout).result = .ok inventory)
    (documents : Documents) :
    (∃ report, (run matcher disk layout documents .keepGoing).result = .ok report ∧
        report.results.map CategoryResult.category = Category.order) ↔
      ∀ category, matcher.Accepts (inventory.identifiers category) := by
  constructor
  · rintro ⟨report, hrun, -⟩ category
    have hwell := (failsAs_run_keepGoing matcher disk layout documents).ok_iff.mp ⟨report, hrun⟩
    have hsearch : .search category ∈ Category.order.flatMap Category.stages :=
      List.mem_flatMap.mpr ⟨category, category.mem_order, by simp [Category.stages]⟩
    exact hwell _ hsearch _ (Inventory.collect_ok_iff.mp h category)
  · intro haccepts
    exact ⟨_, run_keepGoing_of_inventory h haccepts documents, rfl⟩

/-- **The inventory and the check agree on what is expected.**  For every disk, layout and
pair of documents, the inventory fails with a fault exactly when a check that goes on does,
if none of the identifiers that can be collected is refused.  If one is, the check fails as
the inventory does or with the refusal of such an identifier, and in any case when the
inventory fails; when the inventory succeeds, the check does so exactly when none of the
listed identifiers is refused.  The rows are those of one category after the other, the
identifiers of each category ascending and none of them twice; a check in either mode counts
the rows of each category that it evaluates and misses those of them that the document does
not mention, and one that goes on evaluates every category.  A critical command has one row,
and is counted once, however many of the three origins it has. -/
theorem inventory_agrees_with_check (matcher : Matcher) (disk : Disk) (layout : Layout)
    (documents : Documents) :
    (Check.SearchesAll matcher disk layout → ∀ fault,
      ((Inventory.collect disk layout).result = .error fault ↔
        (Check.run matcher disk layout documents .keepGoing).result = .error fault)) ∧
    (∀ fault, (Check.run matcher disk layout documents .keepGoing).result = .error fault →
      (Inventory.collect disk layout).result = .error fault ∨
        ∃ category identifiers identifier refusal,
          (Collect.ofCategory disk layout category).result = .ok identifiers ∧
          identifier ∈ identifiers ∧ matcher.refusal? identifier = some refusal ∧
            fault = .pattern refusal) ∧
    (∀ fault, (Inventory.collect disk layout).result = .error fault →
      ∃ fault', (Check.run matcher disk layout documents .keepGoing).result = .error fault') ∧
    ∀ inventory, (Inventory.collect disk layout).result = .ok inventory →
      (∀ json, (Program.inventory disk layout json).result =
        .ok ⟨0, Rows.printed inventory.rows json Program.rowJson Program.rowLine⟩) ∧
      (inventory.rows = Category.order.flatMap fun category =>
        (inventory.listed category).map (category, ·)) ∧
      (∀ category, (Collect.ofCategory disk layout category).result =
          .ok (inventory.listed category) ∧
        (inventory.listed category).Pairwise (· < ·)) ∧
      ((∃ report, (Check.run matcher disk layout documents .keepGoing).result = .ok report ∧
          report.results.map CategoryResult.category = Category.order) ↔
        ∀ category, matcher.Accepts (inventory.listed category)) ∧
      (∀ mode report, (Check.run matcher disk layout documents mode).result = .ok report →
        ∀ result ∈ report.results,
          result.checked = (inventory.listed result.category).length ∧
          result.missing = (inventory.listed result.category).filter fun identifier =>
            !mentions (documents.text result.category.document) identifier) ∧
      ∃ imported reported,
        (Collect.commands disk (layout.resolve layout.importsDir) layout.sourceExtension
          .recursive).result = .ok imported ∧
        (Collect.commands disk (layout.resolve layout.reportsDir) layout.sourceExtension
          .shallow).result = .ok reported ∧
        (∀ identifier, inventory.rows.count (.criticalCommands, identifier) =
          if identifier ∈ layout.pinnedCommands ∨ identifier ∈ imported ∨ identifier ∈ reported
          then 1 else 0) ∧
        (inventory.listed .criticalCommands).length =
          (layout.pinnedCommands ++ imported ++ reported).dedup.length := by
  refine ⟨fun hall fault => (Check.run_keepGoing_error_iff hall documents fault).symm,
    fun fault => Check.fault_of_run_keepGoing, fun fault => Check.exists_fault_of_collect, ?_⟩
  intro inventory h
  have hlisted := inventory.listed_eq_identifiers
  refine ⟨fun json => ?_, ?_, fun category => ?_, ?_, ?_, ?_⟩
  · rw [Program.inventory, Traced.result_bind_pure, h]
    rfl
  · simp only [hlisted, Inventory.rows]
  · rw [hlisted]
    exact ⟨Inventory.collect_ok_iff.mp h category, Inventory.ascending_identifiers h category⟩
  · simp only [hlisted]
    exact Check.exists_run_keepGoing_iff h documents
  · intro mode report hrun result hmem
    exact Inventory.checked_of_mem h hrun hmem
  · obtain ⟨imported, reported, himported, hreported, hmem⟩ :=
      Inventory.exists_mem_criticalCommands_iff h
    refine ⟨imported, reported, himported, hreported, fun identifier => ?_, ?_⟩
    · rw [(Inventory.nodup_rows h).count]
      simp only [Inventory.mem_rows, hmem]
    · rw [hlisted]
      refine List.Perm.length_eq ?_
      refine (List.perm_ext_iff_of_nodup (Inventory.nodup_identifiers h _)
        (List.nodup_dedup _)).mpr fun identifier => ?_
      rw [hmem, List.mem_dedup, List.append_assoc, List.mem_append, List.mem_append]

/-- **A listed identifier may be refused.**  On the bare disk the documents load and the
inventory lists the pinned command, but a check that goes on fails. -/
theorem refused_though_listed :
    (Documents.load Disk.bare (.pinning [enormous])).result = .ok ⟨"", ""⟩ ∧
      (Inventory.collect Disk.bare (.pinning [enormous])).result = .ok ⟨[], [], [enormous]⟩ ∧
      (Check.run .standard Disk.bare (.pinning [enormous]) ⟨"", ""⟩ .keepGoing).result =
        .error (.pattern "Compiled regex exceeds size limit of 10485760 bytes.") :=
  ⟨rfl, Inventory.collect_bare enormous,
    Check.run_bare_of_refused Matcher.standard_refuses_enormous ⟨"", ""⟩⟩

/-- A disk where a pinned command has a file among the imports and another one among the
reports. -/
def thriceFound : Disk where
  leadsSomewhere _ := false
  readText _ := .ok ""
  entries path :=
    if path = .ofString "./src/TowerOps.Application/Commands/Imports" then
      .ok [(Text.encode "2024", .directory [(Text.encode "RejectByCustomerCommand.cs", .file)]),
        (Text.encode "ImportSitesCommand.cs", .file)]
    else if path = .ofString "./src/TowerOps.Application/Commands/Reports" then
      .ok [(Text.encode "RejectByCustomerCommand.cs", .file)]
    else .ok []

/-- Its inventory. -/
def thriceFoundInventory : Inventory where
  controllers := []
  policies := []
  criticalCommands :=
    ["AcceptByCustomerCommand", "CreateApprovalRecordCommand", "ImportSitesCommand",
      "LogAuditEntryCommand", "RejectByCustomerCommand", "SubmitForCustomerAcceptanceCommand"]

/-- The command has one row and is counted once in a check. -/
theorem agreement_thriceFound :
    (Inventory.collect thriceFound (.standard (.ofString "."))).result =
        .ok thriceFoundInventory ∧
      "RejectByCustomerCommand" ∈ (Layout.standard (.ofString ".")).pinnedCommands ∧
      (Collect.commands thriceFound (.ofString "./src/TowerOps.Application/Commands/Imports") "cs"
        .recursive).result = .ok ["ImportSitesCommand", "RejectByCustomerCommand"] ∧
      (Collect.commands thriceFound (.ofString "./src/TowerOps.Application/Commands/Reports") "cs"
        .shallow).result = .ok ["RejectByCustomerCommand"] ∧
      thriceFoundInventory.rows.count (.criticalCommands, "RejectByCustomerCommand") = 1 ∧
      ∃ report, (Check.run .standard thriceFound (.standard (.ofString ".")) ⟨"", ""⟩
          .keepGoing).result = .ok report ∧
        ∀ result ∈ report.results, result.checked =
          (thriceFoundInventory.listed result.category).length := by
  have hcollect : (Inventory.collect thriceFound (.standard (.ofString "."))).result =
      .ok thriceFoundInventory := Inventory.collect_of_empty_policies rfl rfl rfl
  have himports : (Collect.commands thriceFound
      (.ofString "./src/TowerOps.Application/Commands/Imports") "cs" .recursive).result =
        .ok ["ImportSitesCommand", "RejectByCustomerCommand"] := rfl
  have hreports : (Collect.commands thriceFound
      (.ofString "./src/TowerOps.Application/Commands/Reports") "cs" .shallow).result =
        .ok ["RejectByCustomerCommand"] := rfl
  have hpinned : "RejectByCustomerCommand" ∈ (Layout.standard (.ofString ".")).pinnedCommands := by
    simp [Layout.standard]
  have haccepts : ∀ category, Matcher.standard.Accepts (thriceFoundInventory.listed category) := by
    intro category
    cases category <;> decide +kernel
  obtain ⟨-, -, -, hagree⟩ :=
    inventory_agrees_with_check .standard thriceFound (.standard (.ofString ".")) ⟨"", ""⟩
  obtain ⟨-, -, -, hsucceeds, hchecked, imported, reported, -, -, hcount, -⟩ := hagree _ hcollect
  obtain ⟨report, hreport, -⟩ := hsucceeds.mpr haccepts
  refine ⟨hcollect, hpinned, himports, hreports, ?_, report, hreport, fun result hmem => ?_⟩
  · rw [hcount, if_pos (Or.inl hpinned)]
  · exact (hchecked _ _ hreport result hmem).1

end DocCoverage
