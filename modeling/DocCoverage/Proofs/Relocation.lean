import DocCoverage.Proofs.FirstFault
import DocCoverage.Proofs.LoadedLayout
import DocCoverage.Proofs.Modes
import DocCoverage.Proofs.Reached

/-! # What a run prints is determined by its inputs

The inputs of a run are the text of its overlay, the texts of three files, and three trees
of names and kinds (`SameInput`).  What lies on a disk beside them, where the repository
lies, what is written in a source, and the order in which a directory is listed have no
part in what is printed (`Program.printed_by_inputs`).

Two runs with the same overlay have one layout, but for the root
(`Layout.relocated_of_load`).  A root leads to the inputs and is never shown.  The stems of a
tree are determined by its names and kinds (`Scan.mem_stems_iff_shows`), and a set of
identifiers by its members, so every category is collected alike
(`Collect.collected_eq`); from there on both runs compute the same. -/

namespace DocCoverage

/-! ## The same inputs -/

/-- The kind of what stands under a name. -/
inductive EntryKind
  | file
  | directory
  | other
deriving DecidableEq

/-- A directory is one whether or not it can be opened. -/
def Entry.kind : Entry → EntryKind
  | file => .file
  | directory _ | closed _ => .directory
  | other => .other

theorem Entry.kind_eq_file_iff {entry : Entry} : entry.kind = .file ↔ entry = .file := by
  cases entry <;> simp [kind]

/-- A scan of a directory reaches something of a kind along names. -/
def Disk.Shows (disk : Disk) (dir : Path) (depth : Depth) (names : List FileName)
    (kind : EntryKind) : Prop :=
  ∃ entries entry, disk.entries dir = .ok entries ∧
    Reached Entry.entries? depth entries names entry ∧ entry.kind = kind

/-- What is shown of a directory with these entries. -/
theorem Disk.shows_iff {disk : Disk} {dir : Path} {depth : Depth}
    {entries : List (FileName × Entry)} (hentries : disk.entries dir = .ok entries)
    {names : List FileName} {kind : EntryKind} : disk.Shows dir depth names kind ↔
      ∃ entry, Reached Entry.entries? depth entries names entry ∧ entry.kind = kind := by
  constructor
  · rintro ⟨listed, entry, hlisted, hentry⟩
    obtain rfl : entries = listed := Except.ok.inj (hentries.symm.trans hlisted)
    exact ⟨entry, hentry⟩
  · rintro ⟨entry, hentry⟩
    exact ⟨entries, entry, hentries, hentry⟩

/-- The order in which a directory is listed does not matter. -/
theorem Disk.Shows.of_subset {one other : Disk} {dir dir' : Path} {depth : Depth}
    {entries entries' : List (FileName × Entry)} {names : List FileName} {kind : EntryKind}
    (hentries : one.entries dir = .ok entries) (hentries' : other.entries dir' = .ok entries')
    (hsubset : entries ⊆ entries') (h : one.Shows dir depth names kind) :
    other.Shows dir' depth names kind := by
  obtain ⟨entry, hreached, hkind⟩ := (Disk.shows_iff hentries).mp h
  exact (Disk.shows_iff hentries').mpr ⟨entry, hreached.of_subset hsubset, hkind⟩

/-- Nothing is shown of a directory that cannot be listed. -/
theorem Disk.not_shows_of_error {disk : Disk} {dir : Path} {depth : Depth} {cause : Cause}
    (h : disk.entries dir = .error cause) (names : List FileName) (kind : EntryKind) :
    ¬disk.Shows dir depth names kind := by
  rintro ⟨entries, entry, hentries, -⟩
  exact nomatch h.symm.trans hentries

/-- Two disks have the same for an input, each under its own layout: the same text, or the
same tree of names and kinds as far as the input is scanned. -/
def SameInput (one : Disk) (layout : Layout) (other : Disk) (layout' : Layout)
    (input : PathSetting) : Prop :=
  match input.kind with
  | .text => ∀ text, one.readText (layout.inputPath input) = .ok text ↔
      other.readText (layout'.inputPath input) = .ok text
  | .tree depth => ∀ names kind, one.Shows (layout.inputPath input) depth names kind ↔
      other.Shows (layout'.inputPath input) depth names kind

/-! ## The layout without its root -/

namespace Layout

/-- The layout for another root. -/
def relocate (layout : Layout) (root : Path) : Layout := { layout with root := root }

theorem relocate_assign (layout : Layout) (root : Path) (setting : Setting) :
    (layout.assign setting).relocate root = (layout.relocate root).assign setting := by
  rcases setting with ⟨setting | _ | _ | _, value⟩ | names
  · cases setting <;> rfl
  all_goals rfl

theorem relocate_overlaid (layout : Layout) (root : Path) (given : List Setting) :
    (layout.overlaid given).relocate root = (layout.relocate root).overlaid given := by
  induction given generalizing layout with
  | nil => rfl
  | cons setting given ih =>
    have hstep := ih (layout.assign setting.tidied)
    rw [relocate_assign] at hstep
    exact hstep

/-- **Layouts of one overlay differ in their roots only.** -/
theorem relocated_of_load {one other : Disk} {root root' : Path} {config config' : Option Path}
    {layout layout' : Layout} (hsame : one.overlayText? root config = other.overlayText? root' config')
    (h : (load one root config).result = .ok layout)
    (h' : (load other root' config').result = .ok layout') : layout' = layout.relocate root' := by
  obtain ⟨given, hgiven, rfl⟩ := exists_settings_of_load h
  obtain ⟨given', hgiven', rfl⟩ := exists_settings_of_load h'
  rw [← hsame, hgiven] at hgiven'
  obtain rfl := Option.some.inj hgiven'
  rw [relocate_overlaid]
  rfl

end Layout

/-! ## Collecting alike -/

/-- **The stems of a scan are determined by the names and kinds of the tree.** -/
theorem Scan.mem_stems_iff_shows {disk : Disk} {dir : Path} {extension : String} {depth : Depth}
    {stems : List String} (h : (Scan.stems disk dir extension depth).result = .ok stems)
    {stem : String} :
    stem ∈ stems ↔ ∃ names name, disk.Shows dir depth names .file ∧
      names.getLast? = some name ∧ name = Text.encode (stem ++ "." ++ extension) ∧
      stem ≠ "" ∧ '.' ∉ extension.toList := by
  obtain ⟨entries, hentries, -⟩ := stems_ok_iff.mp h
  have hshows : ∀ names, disk.Shows dir depth names .file ↔
      Reached Entry.entries? depth entries names .file := by
    intro names
    simp only [Disk.shows_iff hentries, Entry.kind_eq_file_iff, exists_eq_right]
  simp only [mem_stems_iff hentries h, hshows]

section
variable {one other : Disk} {layout : Layout} {root : Path}

/-- Scans of one input return the same set, whatever is chosen from their stems. -/
theorem chosen_eq {input : PathSetting} {depth : Depth} (hkind : input.kind = .tree depth)
    (hsame : SameInput one layout other (layout.relocate root) input) {extension : String}
    {stems stems' : List String}
    (h : (Scan.stems one (layout.inputPath input) extension depth).result = .ok stems)
    (h' : (Scan.stems other ((layout.relocate root).inputPath input) extension depth).result =
      .ok stems') (choose : String → Bool) :
    Identifiers.ofList (stems.filter choose) = Identifiers.ofList (stems'.filter choose) := by
  refine Identifiers.ofList_eq_of_mem_iff fun stem => ?_
  rw [SameInput, hkind] at hsame
  rw [List.mem_filter, List.mem_filter, Scan.mem_stems_iff_shows h, Scan.mem_stems_iff_shows h']
  simp only [hsame]

/-- **A category is collected alike from the same inputs.** -/
theorem Collect.collected_eq {category : Category}
    (hsame : ∀ input ∈ category.inputs, SameInput one layout other (layout.relocate root) input)
    {found found' : List String} (h : (ofCategory one layout category).result = .ok found)
    (h' : (ofCategory other (layout.relocate root) category).result = .ok found') :
    found = found' := by
  cases category with
  | controllers =>
    rw [ofCategory, result_controllers] at h h'
    obtain ⟨stems, hstems, rfl⟩ := map_eq_ok_iff.mp h
    obtain ⟨stems', hstems', rfl⟩ := map_eq_ok_iff.mp h'
    exact chosen_eq rfl (hsame .controllersDir (by decide)) hstems hstems' _
  | policies =>
    rw [ofCategory, result_policies] at h h'
    obtain ⟨source, hsource, rfl⟩ := map_eq_ok_iff.mp h
    obtain ⟨source', hsource', rfl⟩ := map_eq_ok_iff.mp h'
    have hread := (hsame .policiesFile (by decide) source).mp (ofDisk_eq_ok_iff.mp hsource)
    obtain rfl : source = source' :=
      Except.ok.inj (hread.symm.trans (ofDisk_eq_ok_iff.mp hsource'))
    rfl
  | criticalCommands =>
    obtain ⟨imported, reported, himported, hreported, rfl⟩ := criticalCommands_ok_iff.mp h
    obtain ⟨imported', reported', himported', hreported', rfl⟩ := criticalCommands_ok_iff.mp h'
    rw [result_commands] at himported hreported himported' hreported'
    obtain ⟨stems, hstems, rfl⟩ := map_eq_ok_iff.mp himported
    obtain ⟨stems', hstems', rfl⟩ := map_eq_ok_iff.mp himported'
    obtain ⟨tops, htops, rfl⟩ := map_eq_ok_iff.mp hreported
    obtain ⟨tops', htops', rfl⟩ := map_eq_ok_iff.mp hreported'
    rw [chosen_eq rfl (hsame .importsDir (by decide)) hstems hstems' _,
      chosen_eq rfl (hsame .reportsDir (by decide)) htops htops' _]
    rfl

/-- A document is shown by its configured path, so a result does not show the root. -/
theorem Check.resultOf_relocate (layout : Layout) (root : Path) (documents : Documents)
    (category : Category) (identifiers : List String) :
    resultOf (layout.relocate root) documents category identifiers =
      resultOf layout documents category identifiers := by
  cases category <;> rfl

/-- In either mode the loop over the categories returns the same results. -/
theorem Check.results_eq {matcher : Matcher} {documents : Documents} {mode : Mode}
    {categories : List Category}
    (hsame : ∀ input, SameInput one layout other (layout.relocate root) input)
    {results results' : List CategoryResult}
    (h : (evaluateAll matcher one layout documents mode categories).result = .ok results)
    (h' : (evaluateAll matcher other (layout.relocate root) documents mode categories).result =
      .ok results') : results = results' := by
  induction categories generalizing results results' with
  | nil => rw [eq_nil_of_evaluateAll h, eq_nil_of_evaluateAll h']
  | cons category rest ih =>
    rw [result_evaluateAll_cons] at h h'
    obtain ⟨result, he, h⟩ := bind_eq_ok_iff.mp h
    obtain ⟨result', he', h'⟩ := bind_eq_ok_iff.mp h'
    obtain ⟨found, hfound, -, rfl⟩ := evaluate_ok_iff.mp he
    obtain ⟨found', hfound', -, rfl⟩ := evaluate_ok_iff.mp he'
    obtain rfl := Collect.collected_eq (fun input _ => hsame input) hfound hfound'
    rw [resultOf_relocate] at h'
    split at h
    · next hstop =>
      rw [if_pos hstop] at h'
      exact (Except.ok.inj h).symm.trans (Except.ok.inj h')
    · next hgo =>
      rw [if_neg hgo] at h'
      obtain ⟨more, hmore, rfl⟩ := map_eq_ok_iff.mp h
      obtain ⟨more', hmore', rfl⟩ := map_eq_ok_iff.mp h'
      rw [ih hmore hmore']

theorem Documents.loaded_eq
    (hsame : ∀ input, SameInput one layout other (layout.relocate root) input)
    {documents documents' : Documents} (h : (load one layout).result = .ok documents)
    (h' : (load other (layout.relocate root)).result = .ok documents') :
    documents = documents' := by
  obtain ⟨hapi, happlication⟩ := load_ok_iff.mp h
  obtain ⟨hapi', happlication'⟩ := load_ok_iff.mp h'
  have heq : documents.api = documents'.api :=
    Except.ok.inj (((hsame .apiDoc _).mp hapi).symm.trans hapi')
  have heq' : documents.application = documents'.application :=
    Except.ok.inj (((hsame .applicationDoc _).mp happlication).symm.trans happlication')
  cases documents
  cases documents'
  simp only at heq heq'
  rw [heq, heq']

theorem Inventory.collected_eq
    (hsame : ∀ input, SameInput one layout other (layout.relocate root) input)
    {inventory inventory' : Inventory} (h : (collect one layout).result = .ok inventory)
    (h' : (collect other (layout.relocate root)).result = .ok inventory') :
    inventory = inventory' := by
  have hcategory : ∀ category, inventory.identifiers category = inventory'.identifiers category :=
    fun category => Collect.collected_eq (fun input _ => hsame input)
      (collect_ok_iff.mp h category) (collect_ok_iff.mp h' category)
  cases inventory
  cases inventory'
  congr
  · exact hcategory .controllers
  · exact hcategory .policies
  · exact hcategory .criticalCommands

end

namespace Program

section
variable {matcher : Matcher} {one other : Disk} {layout : Layout} {root : Path}
  {printed printed' : Printed}

/-- A check prints the same of the same inputs. -/
theorem check_printed_eq
    (hsame : ∀ input, SameInput one layout other (layout.relocate root) input)
    {json keepGoing : Bool} (h : (check matcher one layout json keepGoing).result = .ok printed)
    (h' : (check matcher other (layout.relocate root) json keepGoing).result = .ok printed') :
    printed = printed' := by
  obtain ⟨documents, report, hload, hrun, rfl⟩ := check_ok_iff.mp h
  obtain ⟨documents', report', hload', hrun', rfl⟩ := check_ok_iff.mp h'
  obtain rfl := Documents.loaded_eq hsame hload hload'
  obtain ⟨results, hresults, rfl⟩ := Check.run_ok_iff.mp hrun
  obtain ⟨results', hresults', rfl⟩ := Check.run_ok_iff.mp hrun'
  rw [Check.results_eq hsame hresults hresults']

/-- So does an inventory. -/
theorem inventory_printed_eq
    (hsame : ∀ input, SameInput one layout other (layout.relocate root) input)
    {json : Bool} (h : (inventory one layout json).result = .ok printed)
    (h' : (inventory other (layout.relocate root) json).result = .ok printed') :
    printed = printed' := by
  rw [inventory, Traced.result_bind_pure] at h h'
  obtain ⟨found, hfound, rfl⟩ := map_eq_ok_iff.mp h
  obtain ⟨found', hfound', rfl⟩ := map_eq_ok_iff.mp h'
  rw [Inventory.collected_eq hsame hfound hfound']

/-- So does whatever an invocation asks for. -/
theorem perform_printed_eq
    (hsame : ∀ input, SameInput one layout other (layout.relocate root) input)
    {invocation invocation' : Invocation} (hcommand : invocation.command = invocation'.command)
    (hjson : invocation.json = invocation'.json)
    (h : (perform matcher one layout invocation).result = .ok printed)
    (h' : (perform matcher other (layout.relocate root) invocation').result = .ok printed') :
    printed = printed' := by
  rw [perform, ← hcommand, ← hjson] at h'
  rw [perform] at h
  cases hasked : invocation.command with
  | none =>
    rw [hasked] at h h'
    exact check_printed_eq hsame h h'
  | some command =>
    rw [hasked] at h h'
    cases command with
    | check keepGoing => exact check_printed_eq hsame h h'
    | inventory => exact inventory_printed_eq hsame h h'

end

/-- **What a run prints is determined by its inputs.**  Take two disks, and arguments for each
that ask for the same command in the same form, with any roots and overlays.  If the text of
the overlay is the same, or its absence, and each input of the layout is the same (the text of
a file, or the names and kinds below a directory as far as it is scanned), and neither run
ends with a fault, then both print the same text and end with the same exit code, provided that
both logs can be set up or neither. -/
theorem printed_by_inputs (libraries : Libraries) {one other : Disk} {args args' : List String}
    {invocation invocation' : Invocation} (hread : Invocation.read args = .ok invocation)
    (hread' : Invocation.read args' = .ok invocation')
    (hcommand : invocation.command = invocation'.command)
    (hjson : invocation.json = invocation'.json)
    (hoverlay : one.overlayText? (.ofString invocation.repo) (invocation.config.map .ofString) =
      other.overlayText? (.ofString invocation'.repo) (invocation'.config.map .ofString))
    (hinputs : ∀ layout layout',
      (Layout.load one (.ofString invocation.repo)
        (invocation.config.map .ofString)).result = .ok layout →
      (Layout.load other (.ofString invocation'.repo)
        (invocation'.config.map .ofString)).result = .ok layout' →
      ∀ input, SameInput one layout other layout' input)
    {printed printed' : Printed}
    (hends : (invoke libraries.matcher one invocation).result = .ok printed)
    (hends' : (invoke libraries.matcher other invocation').result = .ok printed')
    {logSetting log' : Option String} (hlog : Filter.SetsUp logSetting ↔ Filter.SetsUp log') :
    (run libraries one args logSetting).stdout = (run libraries other args' log').stdout ∧
      (run libraries one args logSetting).exit = (run libraries other args' log').exit := by
  have heq : printed = printed' := by
    rw [invoke, Traced.result_bind] at hends hends'
    obtain ⟨layout, hload, hperform⟩ := bind_eq_ok_iff.mp hends
    obtain ⟨layout', hload', hperform'⟩ := bind_eq_ok_iff.mp hends'
    have hsame := hinputs layout layout' hload hload'
    obtain rfl := Layout.relocated_of_load hoverlay hload hload'
    exact perform_printed_eq hsame hcommand hjson hperform hperform'
  have hresult : (invoke libraries.matcher one invocation).result =
      (invoke libraries.matcher other invocation').result := by
    rw [hends, hends', heq]
  exact ⟨stdout_congr libraries hread hread' hlog (congrArg stdoutOf hresult),
    exit_congr libraries hread hread' hlog (congrArg exitOf hresult)⟩

/-- A repository with empty documents, a directory of controllers and no other sources. -/
def holding (controllers : List (FileName × Node)) : Node :=
  .directory [
    (Text.encode "docs", .directory
      [(Text.encode "Api-Doc.md", .file (Text.encode "")),
        (Text.encode "Application-Doc.md", .file (Text.encode ""))]),
    (Text.encode "src", .directory
      [(Text.encode "TowerOps.Api", .directory [(Text.encode "Controllers", .directory controllers)])])]

/-- The repository with one controller, as the root of a file system. -/
def settled : FileSystem where
  current := []
  root := holding
    [(Text.encode "WidgetController.cs", .file []), (Text.encode "archive", .directory [])]

/-- The repository elsewhere, listed in another order: the controller is a link to a file
beside the repository. -/
def moved : FileSystem where
  current := [Text.encode "home"]
  root := .directory [
    (Text.encode "home", .directory []),
    (Text.encode "class.txt", .file (Text.encode "class WidgetController")),
    (Text.encode "repo", holding
      [(Text.encode "archive", .directory []),
        (Text.encode "WidgetController.cs", .link (.ofString "/class.txt"))])]

/-- Where its documents are found empty, a check stops at a controller that is not in them. -/
theorem check_holding {fs : FileSystem} {root : Path}
    (hapi : fs.locate (root.join (.ofString "docs/Api-Doc.md")) = .ok (.file (Text.encode "")))
    (happlication : fs.locate (root.join (.ofString "docs/Application-Doc.md")) =
      .ok (.file (Text.encode "")))
    (hcollect : (Collect.ofCategory fs.disk (.standard root) .controllers).result =
      .ok ["WidgetController"]) :
    ∃ printed, (check .standard fs.disk (.standard root) false false).result = .ok printed := by
  have hload : (Documents.load fs.disk (.standard root)).result = .ok ⟨"", ""⟩ :=
    Documents.load_ok_iff.mpr
      ⟨FileSystem.readText_of_locate hapi, FileSystem.readText_of_locate happlication⟩
  have haccepts : Matcher.standard.Accepts ["WidgetController"] := by decide +kernel
  -- the document mentions nothing, so the check goes no further
  have hresults : (Check.evaluateAll .standard fs.disk (.standard root) ⟨"", ""⟩ .failFast
      Category.order).result =
        .ok [Check.resultOf (.standard root) ⟨"", ""⟩ .controllers ["WidgetController"]] := by
    rw [Category.order, Check.result_evaluateAll_cons,
      Check.evaluate_ok_iff.mpr ⟨_, hcollect, haccepts, rfl⟩]
    rfl
  exact ⟨_, check_ok_iff.mpr ⟨_, _, hload, Check.run_ok_iff.mpr ⟨_, hresults, rfl⟩, rfl⟩⟩

/-- The inputs are the same in both places. -/
theorem sameInput_moved (input : PathSetting) :
    SameInput settled.disk (.standard (.ofString ".")) moved.disk
      (.standard (.ofString "../repo")) input := by
  have hentries : settled.disk.entries (.ofString "./src/TowerOps.Api/Controllers") =
      .ok [(Text.encode "WidgetController.cs", .file), (Text.encode "archive", .directory [])] := rfl
  have hentries' : moved.disk.entries (.ofString "../repo/src/TowerOps.Api/Controllers") =
      .ok [(Text.encode "archive", .directory []), (Text.encode "WidgetController.cs", .file)] := rfl
  have htext : ∀ path path', settled.locate path = moved.locate path' → ∀ text,
      settled.disk.readText path = .ok text ↔ moved.disk.readText path' = .ok text := by
    intro path path' hlocate text
    simp only [FileSystem.disk, FileSystem.readText, hlocate]
  cases input with
  | controllersDir =>
    intro names kind
    exact ⟨.of_subset hentries hentries' (by simp), .of_subset hentries' hentries (by simp)⟩
  | importsDir =>
    exact fun names kind => iff_of_false (Disk.not_shows_of_error rfl names kind)
      (Disk.not_shows_of_error rfl names kind)
  | reportsDir =>
    exact fun names kind => iff_of_false (Disk.not_shows_of_error rfl names kind)
      (Disk.not_shows_of_error rfl names kind)
  | policiesFile => exact htext _ _ rfl
  | apiDoc => exact htext _ _ rfl
  | applicationDoc => exact htext _ _ rfl

/-- A check prints the same in both places. -/
theorem printed_moved :
    (∀ input, SameInput settled.disk (.standard (.ofString ".")) moved.disk
        (.standard (.ofString "../repo")) input) ∧
      (run .standard settled.disk ["check"] none).stdout =
        (run .standard moved.disk ["--repo", "../repo", "check"] (some "trace")).stdout ∧
      (run .standard settled.disk ["check"] none).exit =
        (run .standard moved.disk ["--repo", "../repo", "check"] (some "trace")).exit := by
  have hload : (Layout.load settled.disk (.ofString ".") none).result =
      .ok (.standard (.ofString ".")) := rfl
  have hload' : (Layout.load moved.disk (.ofString "../repo") none).result =
      .ok (.standard (.ofString "../repo")) := rfl
  obtain ⟨printed, hends⟩ := @check_holding settled (.ofString ".") rfl rfl rfl
  obtain ⟨printed', hends'⟩ := @check_holding moved (.ofString "../repo") rfl rfl rfl
  have hlog : Filter.SetsUp none ↔ Filter.SetsUp (some "trace") :=
    iff_of_true ⟨_, rfl⟩ ⟨_, rfl⟩
  refine ⟨sameInput_moved, @printed_by_inputs .standard settled.disk moved.disk ["check"]
    ["--repo", "../repo", "check"] ⟨false, false, ".", none, some (.check false)⟩
    ⟨false, false, "../repo", none, some (.check false)⟩ rfl rfl rfl rfl rfl ?_ printed printed'
    ((result_invoke hload).trans hends) ((result_invoke hload').trans hends') none
    (some "trace") hlog⟩
  intro layout layout' h h'
  obtain rfl := Except.ok.inj (hload.symm.trans h)
  obtain rfl := Except.ok.inj (hload'.symm.trans h')
  exact sameInput_moved

end Program
end DocCoverage
