import DocCoverage.Proofs.Inputs
import DocCoverage.Proofs.Modes

/-! # What a run depends on

Two disks that answer alike for the inputs that a run reads cannot be told apart by it
(`Program.perform_congr`): neither by what it prints nor by its log, and whatever else
lies on them or is broken there.  The inputs are those of one disk, so a check that stops
at a gap does not depend on the sources behind that gap, and an inventory does not depend
on the documents (`unneeded_inputs_do_not_matter`).  What is searched for comes of what is
read, so the searches add nothing to that. -/

namespace DocCoverage

/-- Steps that go on alike behind the value of a first step are alike. -/
theorem Traced.bind_congr {α β : Type} {step : Traced α} {next next' : α → Traced β}
    (h : ∀ a, step.result = .ok a → next a = next' a) : step >>= next = step >>= next' := by
  rcases step with ⟨events, fault | a⟩
  · rfl
  · show Traced.bind _ _ = Traced.bind _ _
    simp only [Traced.bind, h a rfl]

namespace Disk

/-- Two disks answer alike for an input. -/
def AlikeAt (one other : Disk) (layout : Layout) (input : PathSetting) : Prop :=
  match input.kind with
  | .text => one.readText (layout.inputPath input) = other.readText (layout.inputPath input)
  | .tree _ => one.entries (layout.inputPath input) = other.entries (layout.inputPath input)

/-- Two disks answer alike for the overlay that an invocation names, or for the one at the
root, which need not be there. -/
def AlikeOverlay (one other : Disk) (invocation : Invocation) : Prop :=
  match invocation.config with
  | some config => one.readText (.ofString config) = other.readText (.ofString config)
  | none =>
    let config := (Path.ofString invocation.repo).join (.ofString Layout.overlayName)
    one.leadsSomewhere config = other.leadsSomewhere config ∧
      one.readText config = other.readText config

end Disk

section
variable {matcher : Matcher} {one other : Disk} {layout : Layout}

theorem Layout.load_congr {invocation : Invocation} (h : one.AlikeOverlay other invocation) :
    load one (.ofString invocation.repo) (invocation.config.map .ofString) =
      load other (.ofString invocation.repo) (invocation.config.map .ofString) := by
  rw [Disk.AlikeOverlay] at h
  cases hconfig : invocation.config with
  | some config =>
    simp only [hconfig] at h
    simp only [Option.map, load, loadOverlay, h]
  | none =>
    simp only [hconfig] at h
    simp only [Option.map, load, loadOverlay, h.1, h.2]

theorem Documents.load_congr (h : ∀ input ∈ Documents.inputs, one.AlikeAt other layout input) :
    load one layout = load other layout := by
  have hapi : one.readText (layout.resolve layout.apiDoc) =
      other.readText (layout.resolve layout.apiDoc) := h .apiDoc (by decide)
  have happlication : one.readText (layout.resolve layout.applicationDoc) =
      other.readText (layout.resolve layout.applicationDoc) := h .applicationDoc (by decide)
  simp only [load, readOne, hapi, happlication]

theorem Collect.ofCategory_congr {category : Category}
    (h : ∀ input ∈ category.inputs, one.AlikeAt other layout input) :
    ofCategory one layout category = ofCategory other layout category := by
  cases category with
  | controllers =>
    have hdir : one.entries (layout.resolve layout.controllersDir) =
        other.entries (layout.resolve layout.controllersDir) := h .controllersDir (by decide)
    simp only [ofCategory, controllers, Scan.stems, hdir]
  | policies =>
    have hfile : one.readText (layout.resolve layout.policiesFile) =
        other.readText (layout.resolve layout.policiesFile) := h .policiesFile (by decide)
    simp only [ofCategory, policies, hfile]
  | criticalCommands =>
    have himports : one.entries (layout.resolve layout.importsDir) =
        other.entries (layout.resolve layout.importsDir) := h .importsDir (by decide)
    have hreports : one.entries (layout.resolve layout.reportsDir) =
        other.entries (layout.resolve layout.reportsDir) := h .reportsDir (by decide)
    simp only [ofCategory, criticalCommands, commands, Scan.stems, himports, hreports]

theorem Check.evaluate_congr {category : Category}
    (h : ∀ input ∈ category.inputs, one.AlikeAt other layout input) (documents : Documents) :
    evaluate matcher one layout documents category =
      evaluate matcher other layout documents category := by
  simp only [evaluate, Collect.ofCategory_congr h]

theorem Inventory.collect_congr (h : ∀ input ∈ Inventory.inputs, one.AlikeAt other layout input) :
    collect one layout = collect other layout := by
  have hcategory : ∀ category,
      Collect.ofCategory one layout category = Collect.ofCategory other layout category :=
    fun category => Collect.ofCategory_congr fun input hinput =>
      h input (List.mem_flatMap.mpr ⟨category, category.mem_order, hinput⟩)
  have hcontrollers : Collect.controllers one layout = _ := hcategory .controllers
  have hpolicies : Collect.policies one layout = _ := hcategory .policies
  have hcommands : Collect.criticalCommands one layout = _ := hcategory .criticalCommands
  rw [collect, hcontrollers, hpolicies, hcommands]
  rfl

/-- A check that goes on depends on the sources of all its categories. -/
theorem Check.evaluateAll_keepGoing_congr (documents : Documents) {categories : List Category}
    (h : ∀ input ∈ categories.flatMap Category.inputs, one.AlikeAt other layout input) :
    evaluateAll matcher one layout documents .keepGoing categories =
      evaluateAll matcher other layout documents .keepGoing categories := by
  induction categories with
  | nil => rfl
  | cons category rest ih =>
    rw [List.flatMap_cons, List.forall_mem_append] at h
    simp only [evaluateAll, evaluate_congr h.1, ih h.2]

/-- A check that stops at the first gap depends on the sources up to that gap. -/
theorem Check.evaluateAll_failFast_congr {documents : Documents}
    (hload : (Documents.load one layout).result = .ok documents) {categories : List Category}
    (h : ∀ input ∈ (reached matcher one layout categories).flatMap Category.inputs,
      one.AlikeAt other layout input) :
    evaluateAll matcher one layout documents .failFast categories =
      evaluateAll matcher other layout documents .failFast categories := by
  induction categories with
  | nil => rfl
  | cons category rest ih =>
    rw [reached] at h
    by_cases hgap : hasGap matcher one layout category = true
    · rw [if_pos hgap, List.flatMap_cons, List.forall_mem_append] at h
      rw [evaluateAll, evaluateAll, ← evaluate_congr h.1]
      obtain ⟨result, hresult, hpassed⟩ := (hasGap_iff hload).mp hgap
      -- behind the gap nothing is evaluated, so what comes next there does not matter
      refine Traced.bind_congr fun found hfound => ?_
      obtain rfl : result = found := by simpa [hresult] using hfound
      simp [hpassed]
    · rw [if_neg hgap, List.flatMap_cons, List.forall_mem_append] at h
      simp only [evaluateAll, ← evaluate_congr h.1, ih h.2]

/-- The stages of some categories read the sources of these categories. -/
theorem Stage.read_mem_flatMap_stages {categories : List Category} {input : PathSetting} :
    .read input ∈ categories.flatMap Category.stages ↔
      input ∈ categories.flatMap Category.inputs := by
  simp [Category.stages]

/-- What is asked of the inputs of two kinds of stages is asked of both. -/
theorem Stage.forall_read_append {p : PathSetting → Prop} {inputs : List PathSetting}
    {categories : List Category}
    (h : ∀ input, .read input ∈ inputs.map Stage.read ++ categories.flatMap Category.stages →
      p input) :
    (∀ input ∈ inputs, p input) ∧ ∀ input ∈ categories.flatMap Category.inputs, p input := by
  constructor
  · exact fun input hmem => h input (List.mem_append_left _ (List.mem_map_of_mem hmem))
  · exact fun input hmem =>
      h input (List.mem_append_right _ (read_mem_flatMap_stages.mpr hmem))

/-- **A run depends on the inputs that it reads, and on nothing else.** -/
theorem Program.perform_congr {invocation : Invocation}
    (h : ∀ input, .read input ∈ stages matcher one layout invocation.command →
      one.AlikeAt other layout input) :
    perform matcher one layout invocation = perform matcher other layout invocation := by
  have hcheck : ∀ keepGoing,
      (∀ input, .read input ∈ stages matcher one layout (some (.check keepGoing)) →
        one.AlikeAt other layout input) →
        check matcher one layout invocation.json keepGoing =
          check matcher other layout invocation.json keepGoing := by
    intro keepGoing hinputs
    rw [check, check]
    refine Traced.bind_congr fun _ _ => ?_
    cases keepGoing with
    | true =>
      obtain ⟨hdocuments, hsources⟩ := Stage.forall_read_append hinputs
      rw [← Documents.load_congr hdocuments]
      refine Traced.bind_congr fun documents _ => ?_
      have hall := @Check.evaluateAll_keepGoing_congr matcher one other layout documents
        Category.order hsources
      simp only [Check.run, if_true, hall]
    | false =>
      obtain ⟨hdocuments, hsources⟩ := Stage.forall_read_append hinputs
      rw [← Documents.load_congr hdocuments]
      refine Traced.bind_congr fun documents hload => ?_
      have hall := Check.evaluateAll_failFast_congr hload hsources
      simp only [Check.run, Bool.false_eq_true, if_false, hall]
  unfold perform
  split
  · next hcommand =>
    rw [hcommand] at h
    exact hcheck false h
  · next keepGoing hcommand =>
    rw [hcommand] at h
    exact hcheck keepGoing h
  · next hcommand =>
    rw [hcommand] at h
    have hsources : ∀ input ∈ Inventory.inputs, one.AlikeAt other layout input :=
      fun input hmem => h input (List.mem_map_of_mem hmem)
    rw [inventory, inventory, Inventory.collect_congr hsources]

end

/-! ## Processes -/

/-- A check is asked for that stops at the first gap. -/
def Invocation.StopsAtGap (invocation : Invocation) : Prop :=
  invocation.command = none ∨ invocation.command = some (.check false)

namespace Program

/-- Two disks answer alike for some inputs of the layout that a process loads. -/
def AlikeForLoaded (one other : Disk) (invocation : Invocation) (inputs : List PathSetting) :
    Prop :=
  ∀ layout, (Layout.load one (.ofString invocation.repo)
      (invocation.config.map .ofString)).result = .ok layout →
    ∀ input ∈ inputs, one.AlikeAt other layout input

/-- Under the layout that a process loads, a category has gaps. -/
def HasGapIn (matcher : Matcher) (disk : Disk) (invocation : Invocation) (category : Category) :
    Prop :=
  ∃ layout, (Layout.load disk (.ofString invocation.repo)
      (invocation.config.map .ofString)).result = .ok layout ∧
    Check.hasGap matcher disk layout category = true

/-- A process leaves the same behind on both disks, whatever its log setting is. -/
def SameRuns (libraries : Libraries) (one other : Disk) (args : List String) : Prop :=
  ∀ logSetting, run libraries one args logSetting = run libraries other args logSetting

section
variable {libraries : Libraries} {matcher : Matcher} {one other : Disk} {args : List String}
  {invocation : Invocation}

/-- A process depends on its overlay and on what a run under its layout reads. -/
theorem invoke_congr (hoverlay : one.AlikeOverlay other invocation)
    (h : ∀ layout, (Layout.load one (.ofString invocation.repo)
        (invocation.config.map .ofString)).result = .ok layout →
      ∀ input, .read input ∈ stages matcher one layout invocation.command →
        one.AlikeAt other layout input) :
    invoke matcher one invocation = invoke matcher other invocation := by
  rw [invoke, invoke, ← Layout.load_congr hoverlay]
  exact Traced.bind_congr fun layout hload => perform_congr (h layout hload)

/-- What a process leaves behind is made of the steps that it takes. -/
theorem sameRuns_of_invoke (hread : Invocation.read args = .ok invocation)
    (h : invoke libraries.matcher one invocation = invoke libraries.matcher other invocation) :
    SameRuns libraries one other args := by
  intro logSetting
  simp only [run, hread, h]

/-- The inputs that a check reads which stops at the first gap. -/
theorem stages_of_stopsAtGap (h : invocation.StopsAtGap) (layout : Layout) :
    stages matcher one layout invocation.command =
      Documents.inputs.map .read ++
        (Check.reached matcher one layout Category.order).flatMap Category.stages := by
  rcases h with h | h <;> rw [h] <;> rfl

/-- A check that stops at the first gap is the same on two disks if they answer alike for the
documents and for the sources up to that gap. -/
theorem sameRuns_of_stopsAtGap (hread : Invocation.read args = .ok invocation)
    (hoverlay : one.AlikeOverlay other invocation) (hstops : invocation.StopsAtGap)
    {layout : Layout} (hload : (Layout.load one (.ofString invocation.repo)
      (invocation.config.map .ofString)).result = .ok layout)
    (halike : ∀ input ∈ Documents.inputs ++
        (Check.reached libraries.matcher one layout Category.order).flatMap Category.inputs,
      one.AlikeAt other layout input) :
    SameRuns libraries one other args := by
  refine sameRuns_of_invoke hread (invoke_congr hoverlay fun loaded hloaded input hinput => ?_)
  obtain rfl : layout = loaded := by simpa [hload] using hloaded
  rw [stages_of_stopsAtGap hstops, List.mem_append, Stage.read_mem_flatMap_stages] at hinput
  refine halike input (List.mem_append.mpr (hinput.imp_left fun hmem => ?_))
  simpa using hmem

end

/-- **Inputs that a run does not need do not matter.**  Two disks that answer alike for
the overlay, the documents and the controllers give the same run of a check that stops at
the first gap if the controllers have one; if they also answer alike for the policies,
it is enough that those have one.  Disks that answer alike for the overlay and all
sources give the same inventory, or the same fault. -/
theorem unneeded_inputs_do_not_matter (libraries : Libraries) {one other : Disk}
    {args : List String} {invocation : Invocation} (hread : Invocation.read args = .ok invocation)
    (hoverlay : one.AlikeOverlay other invocation) :
    (invocation.StopsAtGap →
      AlikeForLoaded one other invocation [.apiDoc, .applicationDoc, .controllersDir] →
        (HasGapIn libraries.matcher one invocation .controllers →
          SameRuns libraries one other args) ∧
        (AlikeForLoaded one other invocation [.policiesFile] →
          ¬HasGapIn libraries.matcher one invocation .controllers →
          HasGapIn libraries.matcher one invocation .policies →
            SameRuns libraries one other args)) ∧
    (invocation.command = some .inventory →
      AlikeForLoaded one other invocation
        [.controllersDir, .policiesFile, .importsDir, .reportsDir] →
        (invoke libraries.matcher one invocation).result =
            (invoke libraries.matcher other invocation).result ∧
          SameRuns libraries one other args) := by
  constructor
  · intro hstops hfirst
    constructor
    · rintro ⟨layout, hload, hgap⟩
      refine sameRuns_of_stopsAtGap hread hoverlay hstops hload ?_
      rw [Category.order, Check.reached, if_pos hgap]
      exact hfirst layout hload
    · rintro hpolicies hnone ⟨layout, hload, hgap⟩
      have hpassed : ¬Check.hasGap libraries.matcher one layout .controllers = true :=
        fun hcontrollers => hnone ⟨layout, hload, hcontrollers⟩
      refine sameRuns_of_stopsAtGap hread hoverlay hstops hload ?_
      rw [Category.order, Check.reached, Check.reached, if_neg hpassed, if_pos hgap]
      intro input hinput
      have hcases : input ∈ [.apiDoc, .applicationDoc, .controllersDir] ∨
          input ∈ [.policiesFile] := by
        simpa [Documents.inputs, Category.inputs, or_assoc] using hinput
      exact hcases.elim (hfirst layout hload input) (hpolicies layout hload input)
  · intro hcommand hsources
    have hinvoke : invoke libraries.matcher one invocation =
        invoke libraries.matcher other invocation := by
      refine invoke_congr hoverlay fun layout hload input hinput => ?_
      rw [hcommand] at hinput
      refine hsources layout hload input ?_
      simpa [stages, Inventory.inputs, Category.order, Category.inputs] using hinput
    exact ⟨congrArg Traced.result hinvoke, sameRuns_of_invoke hread hinvoke⟩

/-- A disk on which nothing lies. -/
def vacant : Disk where
  leadsSomewhere _ := false
  readText _ := .error .notFound
  entries _ := .error .notFound

/-- A check that finds the controller missing does not see that nothing else is there, and
an inventory does not see what the documents say. -/
theorem unneeded_inputs_vacant :
    run .standard (wordless documented) ["check"] none =
        run .standard (wordless vacant) ["check"] none ∧
      run .standard documented ["inventory"] none =
        run .standard (wordless documented) ["inventory"] none := by
  have hload : (Layout.load (wordless documented) (.ofString ".") none).result =
      .ok (.standard (.ofString ".")) := rfl
  have hgap : Check.hasGap .standard (wordless documented) (.standard (.ofString "."))
      .controllers = true := rfl
  have halike : AlikeForLoaded (wordless documented) (wordless vacant)
      ⟨false, false, ".", none, some (.check false)⟩
      [.apiDoc, .applicationDoc, .controllersDir] := by
    intro layout hlayout input hinput
    obtain rfl : Layout.standard (.ofString ".") = layout := Except.ok.inj hlayout
    simp only [List.mem_cons, List.not_mem_nil, or_false] at hinput
    rcases hinput with rfl | rfl | rfl <;> rfl
  have hsources : AlikeForLoaded documented (wordless documented)
      ⟨false, false, ".", none, some .inventory⟩
      [.controllersDir, .policiesFile, .importsDir, .reportsDir] := by
    intro layout hlayout input hinput
    obtain rfl : Layout.standard (.ofString ".") = layout := Except.ok.inj hlayout
    simp only [List.mem_cons, List.not_mem_nil, or_false] at hinput
    rcases hinput with rfl | rfl | rfl | rfl <;> rfl
  obtain ⟨hcheck, -⟩ := @unneeded_inputs_do_not_matter .standard (wordless documented)
    (wordless vacant) ["check"] ⟨false, false, ".", none, some (.check false)⟩ rfl ⟨rfl, rfl⟩
  obtain ⟨-, hinventory⟩ := @unneeded_inputs_do_not_matter .standard documented
    (wordless documented) ["inventory"] ⟨false, false, ".", none, some .inventory⟩ rfl ⟨rfl, rfl⟩
  exact ⟨(hcheck (.inr rfl) halike).1 ⟨_, hload, hgap⟩ none, (hinventory rfl hsources).2 none⟩

end Program
end DocCoverage
