import DocCoverage.FileSystem.View
import DocCoverage.Proofs.Coverage
import DocCoverage.Proofs.Inputs

/-! # How a run with a fault ends

A run of which a stage fails prints nothing, ends with exit code 1, and reports the first
such stage, an input under the path by which it was opened; a run of which all stages go
well ends without a fault (`fault_of_first_failure`).  What earlier categories had already
found does not show.

On a file system an input is missing when nothing is there, when it is of the wrong
kind, or when its bytes are no text (`FileSystem.Unfit`); none of these passes for an
empty document or an empty directory.

That all inputs can be read is not enough: an identifier may be refused
(`fault_of_readable_inputs`). -/

namespace DocCoverage

/-- The message of a fault of an input ends in the path of the input. -/
theorem Fault.exists_message_eq {fault : Fault} {path : Path} (h : fault.path? = some path) :
    ∃ words, fault.message = words ++ path.display := by
  cases fault with
  | pattern => cases h
  | _ =>
    obtain rfl := Option.some.inj h
    exact ⟨_, rfl⟩

namespace FileSystem

/-- A file that holds a text is read as that text. -/
theorem readText_of_locate {fs : FileSystem} {path : Path} {text : String}
    (h : fs.locate path = .ok (.file (Text.encode text))) : fs.readText path = .ok text := by
  simp only [readText, h, Text.decode?_encode]

/-- What lies at a path cannot be read as wanted: nothing lies there, or a directory where
a text is wanted, or bytes that are no text, or no directory where a tree is wanted. -/
inductive Unfit (fs : FileSystem) (path : Path) : InputKind → Prop
  | missing {kind : InputKind} {cause : Cause} (h : fs.locate path = .error cause) :
      Unfit fs path kind
  | directory {entries : List (FileName × Node)}
      (h : fs.locate path = .ok (.directory entries)) : Unfit fs path .text
  | notText {content : List UInt8} (h : fs.locate path = .ok (.file content))
      (hbytes : ∀ text, content ≠ Text.encode text) : Unfit fs path .text
  | noDirectory {depth : Depth} {node : Node} (h : fs.locate path = .ok node)
      (hnode : ∀ entries, node ≠ .directory entries) : Unfit fs path (.tree depth)

/-- **An unfit input is a missing input.** -/
theorem Unfit.unreadable {fs : FileSystem} {layout : Layout} {input : PathSetting}
    (h : fs.Unfit (layout.inputPath input) input.kind) :
    ∃ cause, Unreadable fs.disk layout input (.missingInput (layout.inputPath input) cause) := by
  generalize hkind : input.kind = kind at h
  cases h with
  | missing hlocate =>
    cases kind with
    | text => exact ⟨_, .text hkind (by simp only [disk, readText, hlocate]; rfl)⟩
    | tree depth => exact ⟨_, .tree hkind (by simp only [disk, entries, hlocate]; rfl)⟩
  | directory hlocate => exact ⟨_, .text hkind (by simp only [disk, readText, hlocate]; rfl)⟩
  | notText hlocate hbytes =>
    refine ⟨.notText, .text hkind ?_⟩
    simp only [disk, readText, hlocate]
    cases hdecode : Text.decode? _ with
    | none => rfl
    | some text => exact absurd (Text.eq_encode_of_decode? hdecode) (hbytes text)
  | noDirectory hlocate hnode =>
    refine ⟨.notADirectory, .tree hkind ?_⟩
    simp only [disk, entries, hlocate]

end FileSystem

namespace Program

/-- A process whose layout loads does what is asked for under that layout. -/
theorem result_invoke {matcher : Matcher} {disk : Disk} {invocation : Invocation}
    {layout : Layout} (hload : (Layout.load disk (.ofString invocation.repo)
      (invocation.config.map .ofString)).result = .ok layout) :
    (invoke matcher disk invocation).result = (perform matcher disk layout invocation).result := by
  rw [invoke, Traced.result_bind, hload]
  rfl

/-- A process ended with a fault: it printed nothing, and its log ends with the report of the
fault. -/
structure EndsInFault (libraries : Libraries) (fault : Fault) (outcome : Outcome) : Prop where
  exit : outcome.exit = 1
  stdout : outcome.stdout = ""
  log : (fault.report libraries.complaint).map .line <:+ outcome.log

theorem run_of_fault {libraries : Libraries} {disk : Disk} {args : List String}
    {invocation : Invocation} {fault : Fault} (hread : Invocation.read args = .ok invocation)
    (hfault : (invoke libraries.matcher disk invocation).result = .error fault)
    {logSetting : Option String} (hlog : Filter.SetsUp logSetting) :
    EndsInFault libraries fault (run libraries disk args logSetting) := by
  obtain ⟨filter, hfilter⟩ := hlog
  have hrun : run libraries disk args logSetting = ⟨failure, "", logOf libraries.complaint
      invocation.logJson filter (invoke libraries.matcher disk invocation)⟩ := by
    simp only [run, hread, hfilter, hfault]
  rw [hrun]
  refine ⟨rfl, rfl, ?_⟩
  show _ <:+ logOf _ _ _ _
  rw [logOf, hfault]
  exact List.suffix_append _ _

/-- **A run ends with the fault of its first stage that fails, and with none if all go
well.**  The stages are those of the command, in order: the documents before the sources for a
check, for each category its sources before the search for its identifiers, and for a check
that stops at the first gap nothing behind it.  An input fails with a fault that names the
path by which it is opened, one that is missing or of the wrong kind as a missing input, and a
scan that goes deep also when some directory below cannot be opened. -/
theorem fault_of_first_failure (libraries : Libraries) (disk : Disk) (layout : Layout)
    (invocation : Invocation) :
    (∀ fault, (perform libraries.matcher disk layout invocation).result = .error fault ↔
      FirstFault libraries.matcher disk layout
        (stages libraries.matcher disk layout invocation.command) fault) ∧
    ((∃ printed, (perform libraries.matcher disk layout invocation).result = .ok printed) ↔
      ∀ stage ∈ stages libraries.matcher disk layout invocation.command,
        stage.GoesWell libraries.matcher disk layout) ∧
    (∀ fault, (perform libraries.matcher disk layout invocation).result = .error fault →
      exitOf (perform libraries.matcher disk layout invocation).result = 1 ∧
        stdoutOf (perform libraries.matcher disk layout invocation).result = "" ∧
        ∀ args, Invocation.read args = .ok invocation →
          (Layout.load disk (.ofString invocation.repo)
            (invocation.config.map .ofString)).result = .ok layout →
          ∀ logSetting, Filter.SetsUp logSetting →
            EndsInFault libraries fault (run libraries disk args logSetting)) ∧
    (∀ input fault, Unreadable disk layout input fault →
      fault.path? = some (layout.resolve (layout.pathOf input)) ∧
        ∃ words, fault.message = words ++ (layout.resolve (layout.pathOf input)).display) ∧
    (∀ input, (∃ closedPath cause, Unreadable disk layout input
        (.walk (layout.resolve (layout.pathOf input)) closedPath cause)) ↔
      input.kind = .tree .recursive ∧ ∃ entries,
        disk.entries (layout.resolve (layout.pathOf input)) = .ok entries ∧
          ∃ name entry, (name, entry) ∈ entries ∧ entry.Blocked) ∧
    (∀ fs : FileSystem, disk = fs.disk → ∀ input,
      fs.Unfit (layout.resolve (layout.pathOf input)) input.kind →
        (∃ cause, Unreadable disk layout input
          (.missingInput (layout.resolve (layout.pathOf input)) cause)) ∧
        (input ∈ Documents.inputs →
          ∀ documents, (Documents.load disk layout).result ≠ .ok documents) ∧
        ∀ category : Category, input ∈ category.inputs →
          ∀ identifiers, (Collect.ofCategory disk layout category).result ≠ .ok identifiers) := by
  have hperform := failsAs_perform libraries.matcher disk layout invocation
  refine ⟨hperform, hperform.ok_iff, ?_, ?_, fun input => exists_unreadable_walk_iff, ?_⟩
  · intro fault hfault
    rw [hfault]
    exact ⟨rfl, rfl, fun args hread hload logSetting =>
      run_of_fault hread ((result_invoke hload).trans hfault)⟩
  · intro input fault h
    exact ⟨h.path?_eq, Fault.exists_message_eq h.path?_eq⟩
  · rintro fs rfl input hunfit
    obtain ⟨cause, hunreadable⟩ : ∃ cause, Unreadable fs.disk layout input
        (.missingInput (layout.inputPath input) cause) := hunfit.unreadable
    refine ⟨⟨cause, hunreadable⟩, ?_, ?_⟩
    · intro hinput documents hload
      exact (Documents.failsAs_load libraries.matcher _ layout).ok_iff.mp ⟨documents, hload⟩ _
        (List.mem_map_of_mem hinput) _ hunreadable
    · intro category hinput identifiers hcollect
      exact (Collect.failsAs_ofCategory libraries.matcher _ layout category).ok_iff.mp
        ⟨identifiers, hcollect⟩ _ (List.mem_map_of_mem hinput) _ hunreadable

/-- A check that goes on reads six inputs, and looks for what it has collected of them. -/
example (matcher : Matcher) (disk : Disk) (layout : Layout) :
    stages matcher disk layout (some (.check true)) =
      [.read .apiDoc, .read .applicationDoc, .read .controllersDir, .search .controllers,
        .read .policiesFile, .search .policies, .read .importsDir, .read .reportsDir,
        .search .criticalCommands] := rfl

/-- A file system with one document; a directory stands in the place of the other, and
there are no sources. -/
def damaged : FileSystem where
  current := []
  root := .directory [(Text.encode "docs", .directory
    [(Text.encode "Api-Doc.md", .file (Text.encode "# API")),
      (Text.encode "Application-Doc.md", .directory [])])]

/-- A check of it ends with the fault of the second document, the first stage that fails. -/
theorem fault_of_damaged :
    FirstFault .standard damaged.disk (.standard (.ofString "."))
        (stages .standard damaged.disk (.standard (.ofString ".")) (some (.check true)))
        (.missingInput (.ofString "./docs/Application-Doc.md") .isADirectory) ∧
      EndsInFault .standard (.missingInput (.ofString "./docs/Application-Doc.md") .isADirectory)
        (run .standard damaged.disk ["check", "--keep-going"] none) := by
  have happlication : damaged.locate (.ofString "./docs/Application-Doc.md") =
      .ok (.directory []) := rfl
  have hapi : damaged.disk.readText (.ofString "./docs/Api-Doc.md") = .ok "# API" := by
    have hlocate : damaged.locate (.ofString "./docs/Api-Doc.md") =
        .ok (.file (Text.encode "# API")) := rfl
    simp only [FileSystem.disk, FileSystem.readText, hlocate, Text.decode?_encode]
  have hread : Readable damaged.disk (.standard (.ofString ".")) .apiDoc := by
    intro fault hfault
    obtain ⟨cause, herror, -⟩ := (unreadable_text_iff rfl).mp hfault
    exact nomatch hapi.symm.trans herror
  have hfirst : FirstFault .standard damaged.disk (.standard (.ofString "."))
      (stages .standard damaged.disk (.standard (.ofString ".")) (some (.check true)))
      (.missingInput (.ofString "./docs/Application-Doc.md") .isADirectory) := by
    refine .behind hread (.here (.read (.text rfl ?_)))
    show damaged.readText (.ofString "./docs/Application-Doc.md") = _
    simp only [FileSystem.readText, happlication]
  obtain ⟨hfault, -, hends, -⟩ := fault_of_first_failure .standard damaged.disk
    (.standard (.ofString ".")) ⟨false, false, ".", none, some (.check true)⟩
  obtain ⟨-, -, hprocess⟩ := hends _ ((hfault _).mpr hfirst)
  exact ⟨hfirst, hprocess ["check", "--keep-going"] rfl rfl none ⟨_, rfl⟩⟩

/-- On the bare disk every input can be read. -/
theorem readable_bare (layout : Layout) (input : PathSetting) :
    Readable Disk.bare layout input := by
  rintro fault (⟨-, h⟩ | ⟨-, h⟩ | ⟨-, h, hclosed⟩)
  · cases h
  · cases h
  · obtain rfl := Except.ok.inj h
    cases hclosed

/-- A check that goes on ends there with a fault if the pinned command is refused. -/
theorem perform_bare_of_refused {matcher : Matcher} {name refusal : String}
    (h : matcher.refusal? name = some refusal) :
    (perform matcher Disk.bare (.pinning [name])
      ⟨false, false, ".", none, some (.check true)⟩).result = .error (.pattern refusal) := by
  have hload : (Documents.load Disk.bare (.pinning [name])).result = .ok ⟨"", ""⟩ := rfl
  show (check matcher Disk.bare (.pinning [name]) false true).result = _
  rw [result_check, hload]
  exact map_eq_error_iff.mpr (Check.run_bare_of_refused h ⟨"", ""⟩)

/-- **Inputs that can be read are not enough.**  All of the bare disk can be read, and a check
that goes on ends with a fault all the same, as the pinned command is refused. -/
theorem fault_of_readable_inputs :
    (∀ input, Readable Disk.bare (.pinning [enormous]) input) ∧
      (perform .standard Disk.bare (.pinning [enormous])
          ⟨false, false, ".", none, some (.check true)⟩).result =
        .error (.pattern "Compiled regex exceeds size limit of 10485760 bytes.") :=
  ⟨readable_bare _, perform_bare_of_refused Matcher.standard_refuses_enormous⟩

end Program
end DocCoverage
