import DocCoverage.Proofs.Collectors
import DocCoverage.Proofs.Findings
import DocCoverage.Proofs.Outcome

/-! # The stages of a run, in order

A run under a layout reads up to six inputs: two documents, then the sources of one
category after the other.  A check also looks for the identifiers of a category, right
behind the sources of that category.  These are the stages at which a run can fail
(`Program.stages`).  A check that stops at the first gap goes through the stages up to that
gap and none behind it (`Check.reached`).

What can go wrong with one input is said without any collector (`Unreadable`), and a search
goes wrong when the matcher refuses an identifier (`Stage.Fails`).  A step that goes through
some stages in order either ends with the fault of the first one that fails, or ends well
(`FailsAs`).  That passes from the parts of a step to the step (`FailsAs.bind`), so each
collector, the inventory and a check in either mode have it because their parts do
(`failsAs_perform`). -/

namespace DocCoverage

/-! ## One input -/

/-- What an input is read as: the text of a file, or the tree below a directory. -/
inductive InputKind
  | text
  | tree (depth : Depth)
deriving DecidableEq

/-- What each input is read as. -/
def PathSetting.kind : PathSetting → InputKind
  | .apiDoc | .applicationDoc | .policiesFile => .text
  | .controllersDir | .reportsDir => .tree .shallow
  | .importsDir => .tree .recursive

/-- The path by which an input is opened. -/
def Layout.inputPath (layout : Layout) (input : PathSetting) : Path :=
  layout.resolve (layout.pathOf input)

/-- An input cannot be read, and this is the fault.  A scan that goes deep ends at the first
directory that it cannot open. -/
inductive Unreadable (disk : Disk) (layout : Layout) (input : PathSetting) : Fault → Prop
  | text {cause : Cause} (hkind : input.kind = .text)
      (h : disk.readText (layout.inputPath input) = .error cause) :
      Unreadable disk layout input (.missingInput (layout.inputPath input) cause)
  | tree {depth : Depth} {cause : Cause} (hkind : input.kind = .tree depth)
      (h : disk.entries (layout.inputPath input) = .error cause) :
      Unreadable disk layout input (.missingInput (layout.inputPath input) cause)
  | walk {entries : List (FileName × Entry)} {closedPath : Path} {cause : Cause}
      (hkind : input.kind = .tree .recursive)
      (h : disk.entries (layout.inputPath input) = .ok entries)
      (hclosed : Finding.firstClosed?
        (Finding.inDirectory .recursive (layout.inputPath input) entries) =
          some (closedPath, cause)) :
      Unreadable disk layout input (.walk (layout.inputPath input) closedPath cause)

/-- An input can be read to its end. -/
def Readable (disk : Disk) (layout : Layout) (input : PathSetting) : Prop :=
  ∀ fault, ¬Unreadable disk layout input fault

/-- The path that a fault names, if it is that of an input. -/
def Fault.path? : Fault → Option Path
  | .missingInput path _ | .walk path _ _ | .config path _ => some path
  | .pattern _ => none

/-- The fault of an input names the path by which it is opened. -/
theorem Unreadable.path?_eq {disk : Disk} {layout : Layout} {input : PathSetting} {fault : Fault}
    (h : Unreadable disk layout input fault) : fault.path? = some (layout.inputPath input) := by
  cases h <;> rfl

/-! ## The first stage that fails -/

/-- Where a run can fail: where it reads an input, and where it looks for the identifiers of
a category. -/
inductive Stage
  | read (input : PathSetting)
  | search (category : Category)
deriving DecidableEq

namespace Stage

/-- A stage fails, and this is the fault. -/
inductive Fails (matcher : Matcher) (disk : Disk) (layout : Layout) : Stage → Fault → Prop
  | read {input : PathSetting} {fault : Fault} (h : Unreadable disk layout input fault) :
      Fails matcher disk layout (.read input) fault
  | search {category : Category} {identifiers : List String} {refusal : String}
      (h : (Collect.ofCategory disk layout category).result = .ok identifiers)
      (hrefused : matcher.firstRefusal? identifiers = some refusal) :
      Fails matcher disk layout (.search category) (.pattern refusal)

/-- A stage goes well: the input can be read to its end, or none of the identifiers that are
collected is refused. -/
def GoesWell (matcher : Matcher) (disk : Disk) (layout : Layout) : Stage → Prop
  | read input => Readable disk layout input
  | search category => ∀ identifiers,
      (Collect.ofCategory disk layout category).result = .ok identifiers →
        matcher.Accepts identifiers

variable {matcher : Matcher} {disk : Disk} {layout : Layout}

theorem fails_read_iff {input : PathSetting} {fault : Fault} :
    (read input).Fails matcher disk layout fault ↔ Unreadable disk layout input fault :=
  ⟨fun | .read h => h, .read⟩

theorem fails_search_iff {category : Category} {fault : Fault} :
    (search category).Fails matcher disk layout fault ↔ ∃ identifiers,
      (Collect.ofCategory disk layout category).result = .ok identifiers ∧
        matcher.accept identifiers = .error fault := by
  simp only [Matcher.accept_error_iff]
  constructor
  · rintro (_ | ⟨h, hrefused⟩)
    exact ⟨_, h, _, hrefused, rfl⟩
  · rintro ⟨identifiers, h, refusal, hrefused, rfl⟩
    exact .search h hrefused

/-- A stage that does not fail goes well. -/
theorem goesWell_iff {stage : Stage} :
    stage.GoesWell matcher disk layout ↔ ∀ fault, ¬stage.Fails matcher disk layout fault := by
  cases stage with
  | read input => simp only [GoesWell, Readable, fails_read_iff]
  | search category =>
    simp only [GoesWell, fails_search_iff, ← Matcher.accept_ok_iff, not_exists, not_and]
    refine ⟨fun h fault identifiers hcollect hfault => ?_, fun h identifiers hcollect => ?_⟩
    · cases (h identifiers hcollect).symm.trans hfault
    · cases haccept : matcher.accept identifiers with
      | ok _ => rfl
      | error fault => exact absurd haccept (h fault identifiers hcollect)

end Stage

/-- Of the stages in order, the first that fails has this fault. -/
inductive FirstFault (matcher : Matcher) (disk : Disk) (layout : Layout) :
    List Stage → Fault → Prop
  | here {stage : Stage} {rest : List Stage} {fault : Fault}
      (h : stage.Fails matcher disk layout fault) :
      FirstFault matcher disk layout (stage :: rest) fault
  | behind {stage : Stage} {rest : List Stage} {fault : Fault}
      (hwell : stage.GoesWell matcher disk layout)
      (h : FirstFault matcher disk layout rest fault) :
      FirstFault matcher disk layout (stage :: rest) fault

/-- All of the stages go well. -/
def AllGoWell (matcher : Matcher) (disk : Disk) (layout : Layout) (stages : List Stage) : Prop :=
  ∀ stage ∈ stages, stage.GoesWell matcher disk layout

section
variable {matcher : Matcher} {disk : Disk} {layout : Layout}

theorem firstFault_cons_iff {stage : Stage} {rest : List Stage} {fault : Fault} :
    FirstFault matcher disk layout (stage :: rest) fault ↔
      stage.Fails matcher disk layout fault ∨
        stage.GoesWell matcher disk layout ∧ FirstFault matcher disk layout rest fault := by
  constructor
  · rintro (h | ⟨hwell, h⟩)
    · exact Or.inl h
    · exact Or.inr ⟨hwell, h⟩
  · rintro (h | ⟨hwell, h⟩)
    · exact .here h
    · exact .behind hwell h

theorem allGoWell_cons_iff {stage : Stage} {rest : List Stage} :
    AllGoWell matcher disk layout (stage :: rest) ↔
      stage.GoesWell matcher disk layout ∧ AllGoWell matcher disk layout rest :=
  List.forall_mem_cons

theorem firstFault_append_iff {front back : List Stage} {fault : Fault} :
    FirstFault matcher disk layout (front ++ back) fault ↔
      FirstFault matcher disk layout front fault ∨
        AllGoWell matcher disk layout front ∧ FirstFault matcher disk layout back fault := by
  induction front with
  | nil =>
    refine ⟨fun h => Or.inr ⟨nofun, h⟩, ?_⟩
    rintro (h | ⟨-, h⟩)
    · cases h
    · exact h
  | cons stage rest ih =>
    rw [List.cons_append, firstFault_cons_iff, firstFault_cons_iff, ih, allGoWell_cons_iff]
    constructor
    · rintro (h | ⟨hwell, h | ⟨hrest, h⟩⟩)
      · exact Or.inl (Or.inl h)
      · exact Or.inl (Or.inr ⟨hwell, h⟩)
      · exact Or.inr ⟨⟨hwell, hrest⟩, h⟩
    · rintro ((h | ⟨hwell, h⟩) | ⟨⟨hwell, hrest⟩, h⟩)
      · exact Or.inl h
      · exact Or.inr ⟨hwell, Or.inl h⟩
      · exact Or.inr ⟨hwell, Or.inr ⟨hrest, h⟩⟩

/-- All of the stages go well exactly when none of them is the first that fails. -/
theorem allGoWell_iff {stages : List Stage} :
    AllGoWell matcher disk layout stages ↔
      ∀ fault, ¬FirstFault matcher disk layout stages fault := by
  induction stages with
  | nil => exact ⟨fun _ => nofun, fun _ => nofun⟩
  | cons stage rest ih =>
    rw [allGoWell_cons_iff]
    constructor
    · rintro ⟨hwell, hrest⟩ fault h
      rcases firstFault_cons_iff.mp h with h | ⟨-, h⟩
      · exact Stage.goesWell_iff.mp hwell fault h
      · exact ih.mp hrest fault h
    · intro h
      have hwell : stage.GoesWell matcher disk layout :=
        Stage.goesWell_iff.mpr fun fault hfault => h fault (.here hfault)
      exact ⟨hwell, ih.mpr fun fault hfault => h fault (.behind hwell hfault)⟩

end

/-! ## Steps that go through stages in order -/

/-- A step ends with a fault exactly when one of the stages fails, and then with the fault of
the first such stage. -/
def FailsAs (matcher : Matcher) (disk : Disk) (layout : Layout) (stages : List Stage) {α : Type}
    (outcome : Except Fault α) : Prop :=
  ∀ fault, outcome = .error fault ↔ FirstFault matcher disk layout stages fault

section
variable {matcher : Matcher} {disk : Disk} {layout : Layout} {α β : Type}
  {outcome : Except Fault α} {stages more : List Stage}

/-- A step returns a value exactly when all of its stages go well. -/
theorem FailsAs.ok_iff (h : FailsAs matcher disk layout stages outcome) :
    (∃ a, outcome = .ok a) ↔ AllGoWell matcher disk layout stages := by
  rw [allGoWell_iff]
  constructor
  · rintro ⟨a, rfl⟩ fault hfault
    cases (h fault).mpr hfault
  · intro hnone
    cases houtcome : outcome with
    | ok a => exact ⟨a, rfl⟩
    | error fault => exact absurd ((h fault).mp houtcome) (hnone fault)

/-- What goes through no stage never fails. -/
theorem failsAs_ok (a : α) : FailsAs matcher disk layout [] (.ok a : Except Fault α) :=
  fun _ => ⟨nofun, nofun⟩

/-- A step with one stage fails as that stage does. -/
theorem failsAs_singleton {stage : Stage}
    (h : ∀ fault, outcome = .error fault ↔ stage.Fails matcher disk layout fault) :
    FailsAs matcher disk layout [stage] outcome := by
  intro fault
  have hnil : ¬FirstFault matcher disk layout [] fault := nofun
  rw [h, firstFault_cons_iff]
  simp [hnil]

/-- **One step after the other.**  A second step is taken only when all stages of the first
one went well. -/
theorem FailsAs.bind {next : α → Except Fault β} (h : FailsAs matcher disk layout stages outcome)
    (hnext : ∀ a, outcome = .ok a → FailsAs matcher disk layout more (next a)) :
    FailsAs matcher disk layout (stages ++ more) (outcome.bind next) := by
  intro fault
  rw [firstFault_append_iff]
  cases houtcome : outcome with
  | error other =>
    have hother : FirstFault matcher disk layout stages other := (h other).mp houtcome
    have hfails : ¬AllGoWell matcher disk layout stages :=
      fun hall => allGoWell_iff.mp hall other hother
    rw [← h fault, houtcome]
    simp [Except.bind, hfails]
  | ok a =>
    have hall : AllGoWell matcher disk layout stages := h.ok_iff.mp ⟨a, houtcome⟩
    have hnone : ¬FirstFault matcher disk layout stages fault := allGoWell_iff.mp hall fault
    show next a = .error fault ↔ _
    rw [hnext a houtcome fault]
    simp [hall, hnone]

/-- What is computed from the outcome cannot fail. -/
theorem FailsAs.map (h : FailsAs matcher disk layout stages outcome) (f : α → β) :
    FailsAs matcher disk layout stages (outcome.map f) := by
  intro fault
  rw [map_eq_error_iff, h fault]

end

/-! ## One stage -/

section
variable {matcher : Matcher} {disk : Disk} {layout : Layout} {input : PathSetting}

theorem unreadable_text_iff (hkind : input.kind = .text) {fault : Fault} :
    Unreadable disk layout input fault ↔
      ∃ cause, disk.readText (layout.inputPath input) = .error cause ∧
        fault = .missingInput (layout.inputPath input) cause := by
  constructor
  · rintro (⟨-, h⟩ | ⟨htree, -⟩ | ⟨htree, -⟩)
    · exact ⟨_, h, rfl⟩
    all_goals rw [hkind] at htree; cases htree
  · rintro ⟨cause, h, rfl⟩
    exact .text hkind h

theorem unreadable_tree_iff {depth : Depth} (hkind : input.kind = .tree depth) {fault : Fault} :
    Unreadable disk layout input fault ↔
      (∃ cause, disk.entries (layout.inputPath input) = .error cause ∧
        fault = .missingInput (layout.inputPath input) cause) ∨
      ∃ entries, disk.entries (layout.inputPath input) = .ok entries ∧
        ∃ closedPath cause, Finding.firstClosed?
            (Finding.inDirectory depth (layout.inputPath input) entries) =
              some (closedPath, cause) ∧
          fault = .walk (layout.inputPath input) closedPath cause := by
  constructor
  · rintro (⟨htext, -⟩ | ⟨-, h⟩ | ⟨htree, h, hclosed⟩)
    · rw [hkind] at htext
      cases htext
    · exact Or.inl ⟨_, h, rfl⟩
    · rw [hkind] at htree
      obtain rfl := InputKind.tree.inj htree
      exact Or.inr ⟨_, h, _, _, hclosed, rfl⟩
  · rintro (⟨cause, h, rfl⟩ | ⟨entries, h, closedPath, cause, hclosed, rfl⟩)
    · exact .tree hkind h
    · -- only a scan that goes deep meets such a directory
      obtain ⟨rfl, -⟩ :=
        Finding.isSome_firstClosed?_inDirectory_iff.mp (Option.isSome_of_mem hclosed)
      exact .walk hkind h hclosed

/-- **A scan is cut short exactly when it goes deep and some directory below cannot be
opened**, however deep that lies. -/
theorem exists_unreadable_walk_iff :
    (∃ closedPath cause, Unreadable disk layout input
        (.walk (layout.inputPath input) closedPath cause)) ↔
      input.kind = .tree .recursive ∧ ∃ entries,
        disk.entries (layout.inputPath input) = .ok entries ∧
          ∃ name entry, (name, entry) ∈ entries ∧ entry.Blocked := by
  constructor
  · rintro ⟨closedPath, cause, ⟨⟩ | ⟨⟩ | ⟨hkind, h, hclosed⟩⟩
    have hblocked :=
      Finding.isSome_firstClosed?_inDirectory_iff.mp (Option.isSome_of_mem hclosed)
    exact ⟨hkind, _, h, hblocked.2⟩
  · rintro ⟨hkind, entries, h, hblocked⟩
    obtain ⟨⟨closedPath, cause⟩, hclosed⟩ := Option.isSome_iff_exists.mp
      (Finding.isSome_firstClosed?_inDirectory_iff.mpr ⟨rfl, hblocked⟩)
    exact ⟨closedPath, cause, .walk hkind h hclosed⟩

theorem failsAs_readText (input : PathSetting) (hkind : input.kind = .text) :
    FailsAs matcher disk layout [.read input] (Traced.ofDisk (layout.inputPath input)
      (disk.readText (layout.inputPath input))).result := by
  refine failsAs_singleton fun fault => ?_
  rw [Stage.fails_read_iff, unreadable_text_iff hkind]
  cases disk.readText (layout.inputPath input) <;> simp [Traced.ofDisk, eq_comm]

theorem failsAs_stems (input : PathSetting) {depth : Depth} (hkind : input.kind = .tree depth)
    (extension : String) :
    FailsAs matcher disk layout [.read input]
      (Scan.stems disk (layout.inputPath input) extension depth).result := by
  refine failsAs_singleton fun fault => ?_
  rw [Stage.fails_read_iff, unreadable_tree_iff hkind, Scan.stems, Traced.result_bind]
  cases disk.entries (layout.inputPath input) with
  | error cause => simp [Traced.ofDisk, Except.bind, eq_comm]
  | ok entries => simp [Traced.ofDisk, Except.bind, Scan.result_stemsOf_error_iff]

/-- Looking for identifiers that have been collected fails at the first that is refused. -/
theorem failsAs_accept {category : Category} {identifiers : List String}
    (h : (Collect.ofCategory disk layout category).result = .ok identifiers) :
    FailsAs matcher disk layout [.search category] (matcher.accept identifiers) := by
  refine failsAs_singleton fun fault => ?_
  rw [Stage.fails_search_iff]
  simp [h]

end

/-! ## The steps of a run -/

/-- The documents, in the order in which they are read. -/
def Documents.inputs : List PathSetting := [.apiDoc, .applicationDoc]

/-- The sources of a category, in the order in which they are read. -/
def Category.inputs : Category → List PathSetting
  | .controllers => [.controllersDir]
  | .policies => [.policiesFile]
  | .criticalCommands => [.importsDir, .reportsDir]

/-- The sources of all categories. -/
def Inventory.inputs : List PathSetting := Category.order.flatMap Category.inputs

/-- The stages of evaluating a category: its sources are read, and then its identifiers are
looked for. -/
def Category.stages (category : Category) : List Stage :=
  category.inputs.map .read ++ [.search category]

/-- A category has gaps: the documents load, its identifiers can be collected, none of them is
refused, and its document does not mention one of them. -/
def Check.hasGap (matcher : Matcher) (disk : Disk) (layout : Layout) (category : Category) :
    Bool :=
  match (Documents.load disk layout).result, (Collect.ofCategory disk layout category).result with
  | .ok documents, .ok identifiers =>
    match matcher.missing (documents.text category.document) identifiers with
    | .ok missing => !missing.isEmpty
    | .error _ => false
  | _, _ => false

/-- The categories up to the first one with gaps, that one included. -/
def Check.reached (matcher : Matcher) (disk : Disk) (layout : Layout) :
    List Category → List Category
  | [] => []
  | category :: rest =>
    if hasGap matcher disk layout category then [category]
    else category :: reached matcher disk layout rest

/-- The stages of a run, in order. -/
def Program.stages (matcher : Matcher) (disk : Disk) (layout : Layout) :
    Option Subcommand → List Stage
  | some .inventory => Inventory.inputs.map .read
  | some (.check true) => Documents.inputs.map .read ++ Category.order.flatMap Category.stages
  | some (.check false) | none =>
    Documents.inputs.map .read ++
      (Check.reached matcher disk layout Category.order).flatMap Category.stages

section
variable (matcher : Matcher) (disk : Disk) (layout : Layout)

theorem Documents.result_readOne (path : Path) :
    (readOne disk path).result = (Traced.ofDisk path (disk.readText path)).result := by
  simp only [readOne, Traced.result_bind]
  cases (Traced.ofDisk path (disk.readText path)).result <;> rfl

/-- A step has the answer of the disk when there is one. -/
theorem ofDisk_eq_ok_iff {α : Type} {path : Path} {answer : Except Cause α} {a : α} :
    (Traced.ofDisk path answer).result = .ok a ↔ answer = .ok a := by
  cases answer <;> simp [Traced.ofDisk]

/-- The documents are read one after the other. -/
theorem Documents.result_load :
    (load disk layout).result =
      (Traced.ofDisk (layout.inputPath .apiDoc)
        (disk.readText (layout.inputPath .apiDoc))).result.bind fun api =>
          (Traced.ofDisk (layout.inputPath .applicationDoc)
            (disk.readText (layout.inputPath .applicationDoc))).result.map fun application =>
              ⟨api, application⟩ := by
  rw [load, Traced.result_bind, result_readOne]
  refine congrArg _ (funext fun api => ?_)
  rw [Traced.result_bind_pure, result_readOne]
  rfl

variable {disk layout} in
/-- Documents load when both can be read, and have the texts that are read. -/
theorem Documents.load_ok_iff {documents : Documents} :
    (load disk layout).result = .ok documents ↔
      disk.readText (layout.inputPath .apiDoc) = .ok documents.api ∧
        disk.readText (layout.inputPath .applicationDoc) = .ok documents.application := by
  obtain ⟨api, application⟩ := documents
  rw [result_load]
  simp [bind_eq_ok_iff, map_eq_ok_iff, ofDisk_eq_ok_iff]

theorem Documents.failsAs_load :
    FailsAs matcher disk layout (Documents.inputs.map .read) (load disk layout).result := by
  rw [result_load]
  exact (failsAs_readText .apiDoc rfl).bind fun api _ =>
    (failsAs_readText .applicationDoc rfl).map _

/-- Collecting a category reads its sources. -/
theorem Collect.failsAs_ofCategory (category : Category) :
    FailsAs matcher disk layout (category.inputs.map .read)
      (ofCategory disk layout category).result := by
  cases category with
  | controllers =>
    rw [ofCategory, result_controllers]
    exact FailsAs.map (failsAs_stems .controllersDir rfl _) _
  | policies =>
    rw [ofCategory, result_policies]
    exact FailsAs.map (failsAs_readText .policiesFile rfl) _
  | criticalCommands =>
    rw [ofCategory, result_criticalCommands, result_commands, result_commands]
    exact ((failsAs_stems .importsDir rfl _).map _).bind fun imported _ =>
      ((failsAs_stems .reportsDir rfl _).map _).map _

/-- Evaluating a category looks for what has been collected. -/
theorem Check.failsAs_evaluate (documents : Documents) (category : Category) :
    FailsAs matcher disk layout category.stages
      (evaluate matcher disk layout documents category).result := by
  rw [result_evaluate]
  exact (Collect.failsAs_ofCategory matcher disk layout category).bind fun identifiers h =>
    (failsAs_accept h).map _

/-- Collecting the inventory reads the sources of all categories. -/
theorem Inventory.failsAs_collect :
    FailsAs matcher disk layout (Inventory.inputs.map .read) (collect disk layout).result := by
  rw [result_collect]
  exact (Collect.failsAs_ofCategory matcher disk layout .controllers).bind fun controllers _ =>
    (Collect.failsAs_ofCategory matcher disk layout .policies).bind fun policies _ =>
      (Collect.failsAs_ofCategory matcher disk layout .criticalCommands).map _

/-- A check that goes on goes through the stages of each of its categories. -/
theorem Check.failsAs_evaluateAll_keepGoing (documents : Documents)
    (categories : List Category) :
    FailsAs matcher disk layout (categories.flatMap Category.stages)
      (evaluateAll matcher disk layout documents .keepGoing categories).result := by
  induction categories with
  | nil => exact failsAs_ok _
  | cons category rest ih =>
    rw [result_evaluateAll_cons, List.flatMap_cons]
    refine (failsAs_evaluate matcher disk layout documents category).bind fun result _ => ?_
    simpa using ih.map _

theorem Check.failsAs_run_keepGoing (documents : Documents) :
    FailsAs matcher disk layout (Category.order.flatMap Category.stages)
      (run matcher disk layout documents .keepGoing).result := by
  rw [result_run]
  exact (failsAs_evaluateAll_keepGoing matcher disk layout documents Category.order).map _

variable {matcher disk layout} in
/-- A category with gaps is one that evaluates without passing. -/
theorem Check.hasGap_iff {documents : Documents}
    (hload : (Documents.load disk layout).result = .ok documents) {category : Category} :
    hasGap matcher disk layout category = true ↔
      ∃ result, (evaluate matcher disk layout documents category).result = .ok result ∧
        result.passed = false := by
  simp only [hasGap, hload, result_evaluate, Matcher.missing_eq]
  cases (Collect.ofCategory disk layout category).result with
  | error fault => simp [Except.bind]
  | ok identifiers =>
    simp only [Except.bind]
    cases matcher.accept identifiers with
    | error fault => simp [Except.map]
    | ok _ => simp [Except.map, resultOf, CategoryResult.passed]

variable {matcher disk layout} in
/-- A check that stops at the first gap goes through the stages up to there. -/
theorem Check.failsAs_evaluateAll_failFast {documents : Documents}
    (hload : (Documents.load disk layout).result = .ok documents) (categories : List Category) :
    FailsAs matcher disk layout ((reached matcher disk layout categories).flatMap Category.stages)
      (evaluateAll matcher disk layout documents .failFast categories).result := by
  induction categories with
  | nil => exact failsAs_ok _
  | cons category rest ih =>
    rw [result_evaluateAll_cons, reached]
    have hevaluate := failsAs_evaluate matcher disk layout documents category
    by_cases hgap : hasGap matcher disk layout category = true
    · obtain ⟨result, hresult, hpassed⟩ := (hasGap_iff hload).mp hgap
      rw [if_pos hgap, List.flatMap_cons]
      refine hevaluate.bind fun other hother => ?_
      obtain rfl : result = other := by simpa [hresult] using hother
      rw [hpassed]
      exact failsAs_ok _
    · rw [if_neg hgap, List.flatMap_cons]
      refine hevaluate.bind fun result hresult => ?_
      -- a category that evaluates and has no gap passes, so the loop goes on
      have hpassed : result.passed = true := by
        cases hp : result.passed with
        | true => rfl
        | false => exact absurd ((hasGap_iff hload).mpr ⟨result, hresult, hp⟩) hgap
      simpa [hpassed] using ih.map (result :: ·)

/-- **A run ends with a fault exactly when one of its stages fails**, and then with the fault
of the first such stage. -/
theorem Program.failsAs_perform (invocation : Invocation) :
    FailsAs matcher disk layout (stages matcher disk layout invocation.command)
      (perform matcher disk layout invocation).result := by
  have hcheck : ∀ keepGoing,
      FailsAs matcher disk layout (stages matcher disk layout (some (.check keepGoing)))
        (check matcher disk layout invocation.json keepGoing).result := by
    intro keepGoing
    rw [result_check]
    have hload := Documents.failsAs_load matcher disk layout
    cases keepGoing with
    | true =>
      exact hload.bind fun documents _ =>
        (Check.failsAs_run_keepGoing matcher disk layout documents).map _
    | false =>
      refine hload.bind fun documents hdocuments => FailsAs.map ?_ _
      rw [Check.result_run]
      exact (Check.failsAs_evaluateAll_failFast hdocuments Category.order).map _
  unfold perform
  split
  · next hcommand =>
    rw [hcommand]
    exact hcheck false
  · next keepGoing hcommand =>
    rw [hcommand]
    exact hcheck keepGoing
  · next hcommand =>
    rw [hcommand, inventory, Traced.result_bind_pure]
    exact (Inventory.failsAs_collect matcher disk layout).map _

end
end DocCoverage
