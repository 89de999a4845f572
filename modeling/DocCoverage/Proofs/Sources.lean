import DocCoverage.FileSystem.View
import DocCoverage.Proofs.Reached

/-! # Which sources are collected

On a file system a source of a stem is a regular file, or a link that leads to one, whose
name is the stem, a dot and the extension (`FileSystem.Source`).  A scan sees the tree of
nodes through the lengths of its paths: a file at a path that is too long is not seen as
one, and a directory there cannot be opened.  Where every path is short enough a scan sees
every node for what it is (`FileSystem.reached_viewAll`), so its stems are exactly those of
the sources that are reached, through directories and never through links to them.

The collectors choose among these stems by their endings.  That what handles or validates a
command is no command follows from the ending alone (`Collect.isCommand_iff`). -/

namespace DocCoverage

namespace FileSystem

variable (fs : FileSystem)

/-- The directory at a path can be opened and holds these nodes, and no path that a scan of
it reaches is too long. -/
structure Open (depth : Depth) (dir : Path) (nodes : List (FileName × Node)) : Prop where
  here : fs.locate dir = .ok (.directory nodes)
  within : ∀ names node, Reached Node.entries? depth nodes names node →
    (dir.along names).bytes.length ≤ maxPath

variable {fs} in
/-- A shallow scan reaches no more than a deep one. -/
theorem Open.shallow {dir : Path} {nodes : List (FileName × Node)}
    (h : fs.Open .recursive dir nodes) : fs.Open .shallow dir nodes where
  here := h.here
  within names node hreached := by
    obtain ⟨name, rfl, hmem⟩ := reached_shallow_iff.mp hreached
    exact h.within _ _ (.here hmem)

/-- The node at a path is a regular file, or a link by which one is found. -/
inductive Regular (path : Path) : Node → Prop
  | file {content : List UInt8} : Regular path (.file content)
  | link {target : Path} {content : List UInt8} (h : fs.locate path = .ok (.file content)) :
      Regular path (.link target)

/-- A scan of a directory reaches a source of a stem.  The last dot of its name stands
before the extension, and not in first position. -/
def Source (depth : Depth) (dir : Path) (nodes : List (FileName × Node))
    (extension stem : String) : Prop :=
  stem ≠ "" ∧ '.' ∉ extension.toList ∧ ∃ names node,
    Reached Node.entries? depth nodes names node ∧
      names.getLast? = some (Text.encode (stem ++ "." ++ extension)) ∧
        fs.Regular (dir.along names) node

/-! ## What a scan sees of a tree of nodes -/

theorem mem_viewAll_iff {dir : Path} {nodes : List (FileName × Node)} {name : FileName}
    {entry : Entry} :
    (name, entry) ∈ fs.viewAll dir nodes ↔
      ∃ node, (name, node) ∈ nodes ∧ entry = fs.view (dir.join (.ofName name)) node := by
  induction nodes with
  | nil => simp [viewAll]
  | cons pair rest ih =>
    obtain ⟨other, first⟩ := pair
    rw [viewAll, List.mem_cons, ih]
    constructor
    · rintro (heq | ⟨node, hmem, hentry⟩)
      · obtain ⟨rfl, rfl⟩ := Prod.mk.inj heq
        exact ⟨first, List.mem_cons_self, rfl⟩
      · exact ⟨node, List.mem_cons_of_mem _ hmem, hentry⟩
    · rintro ⟨node, hmem, rfl⟩
      rcases List.mem_cons.mp hmem with heq | hmem
      · obtain ⟨rfl, rfl⟩ := Prod.mk.inj heq
        exact Or.inl rfl
      · exact Or.inr ⟨node, hmem, rfl⟩

/-- Only a directory at a path that is short enough is seen with its entries. -/
theorem entries?_view_eq_some_iff {path : Path} {node : Node} {inner : List (FileName × Entry)} :
    (fs.view path node).entries? = some inner ↔ ∃ nodes, node = .directory nodes ∧
      path.bytes.length ≤ maxPath ∧ fs.viewAll path nodes = inner := by
  cases node with
  | file content =>
    rw [view]
    split <;> simp [Entry.entries?]
  | device => simp [view, Entry.entries?]
  | link target =>
    rw [view]
    split <;> simp [Entry.entries?]
  | directory nodes =>
    rw [view]
    by_cases hlength : path.bytes.length ≤ maxPath
    · simp [hlength, Entry.entries?]
    · simp [hlength, Entry.entries?]

/-- What a scan reaches is the view of a node that is reached. -/
theorem exists_reached_of_viewAll {depth : Depth} {dir : Path} {nodes : List (FileName × Node)}
    {names : List FileName} {entry : Entry}
    (h : Reached Entry.entries? depth (fs.viewAll dir nodes) names entry) :
    ∃ node, Reached Node.entries? depth nodes names node ∧
      entry = fs.view (dir.along names) node := by
  generalize hview : fs.viewAll dir nodes = entries at h
  induction h generalizing dir nodes with
  | here hmem =>
    subst hview
    obtain ⟨node, hnode, rfl⟩ := fs.mem_viewAll_iff.mp hmem
    exact ⟨node, .here hnode, rfl⟩
  | deeper hdeep hmem hinside _ ih =>
    subst hview
    obtain ⟨node, hnode, rfl⟩ := fs.mem_viewAll_iff.mp hmem
    obtain ⟨inner, rfl, -, hinner⟩ := fs.entries?_view_eq_some_iff.mp hinside
    obtain ⟨last, hreached, rfl⟩ := ih hinner
    exact ⟨last, .deeper hdeep hnode rfl hreached, rfl⟩

/-- A node that is reached is seen, if no path on the way is too long. -/
theorem reached_viewAll {depth : Depth} {dir : Path} {nodes : List (FileName × Node)}
    {names : List FileName} {node : Node}
    (hwithin : ∀ names node, Reached Node.entries? depth nodes names node →
      (dir.along names).bytes.length ≤ maxPath)
    (h : Reached Node.entries? depth nodes names node) :
    Reached Entry.entries? depth (fs.viewAll dir nodes) names (fs.view (dir.along names) node) := by
  induction h generalizing dir with
  | here hmem => exact .here (fs.mem_viewAll_iff.mpr ⟨_, hmem, rfl⟩)
  | @deeper nodes inner name names node last hdeep hmem hinside _ ih =>
    obtain rfl : node = .directory inner := by
      cases node with
      | directory => rw [Option.some.inj hinside]
      | _ => cases hinside
    have hlength : (dir.join (.ofName name)).bytes.length ≤ maxPath :=
      hwithin [name] _ (.here hmem)
    refine .deeper hdeep (fs.mem_viewAll_iff.mpr ⟨_, hmem, rfl⟩)
      (fs.entries?_view_eq_some_iff.mpr ⟨inner, rfl, hlength, rfl⟩) (ih fun names' node' h => ?_)
    exact hwithin (name :: names') node' (.deeper hdeep hmem rfl h)

theorem isFile_iff {path : Path} :
    fs.isFile path = true ↔ ∃ content, fs.locate path = .ok (.file content) := by
  rw [isFile]
  split
  · next content hlocate => exact iff_of_true rfl ⟨content, hlocate⟩
  · next hother => exact iff_of_false Bool.false_ne_true fun ⟨content, h⟩ => hother content h

/-- At a path that is short enough a scan sees a file where there is a regular one. -/
theorem view_eq_file_iff {path : Path} (hlength : path.bytes.length ≤ maxPath) {node : Node} :
    fs.view path node = .file ↔ fs.Regular path node := by
  cases node with
  | file content => exact iff_of_true (by simp [view, hlength]) .file
  | device => exact iff_of_false (by simp [view]) nofun
  | directory nodes => exact iff_of_false (by simp [view, hlength]) nofun
  | link target =>
    rw [view]
    constructor
    · intro hfile
      split at hfile
      · next hthere =>
        obtain ⟨content, hlocate⟩ := fs.isFile_iff.mp hthere
        exact .link hlocate
      · cases hfile
    · rintro (_ | hlocate)
      exact if_pos (fs.isFile_iff.mpr ⟨_, hlocate⟩)

/-- So no directory is closed to it. -/
theorem view_ne_closed {path : Path} (hlength : path.bytes.length ≤ maxPath) (node : Node)
    (cause : Cause) :    fs.view path node ≠ .closed cause := by
  cases node with
  | file content => simp [view, hlength]
  | device => simp [view]
  | directory nodes => simp [view, hlength]
  | link target =>
    rw [view]
    split <;> simp

/-- **The stems of a directory that can be scanned are those of its sources.** -/
theorem exists_stems_of_open {depth : Depth} {dir : Path} {nodes : List (FileName × Node)}
    (hopen : fs.Open depth dir nodes) (extension : String) :
    ∃ stems, (Scan.stems fs.disk dir extension depth).result = .ok stems ∧
      ∀ stem, stem ∈ stems ↔ fs.Source depth dir nodes extension stem := by
  have hentries : fs.disk.entries dir = .ok (fs.viewAll dir nodes) := by
    simp only [disk, entries, hopen.here]
  have hnone : ∀ names cause,
      ¬Reached Entry.entries? depth (fs.viewAll dir nodes) names (.closed cause) := by
    intro names cause hclosed
    obtain ⟨node, hreached, hview⟩ := fs.exists_reached_of_viewAll hclosed
    exact fs.view_ne_closed (hopen.within _ _ hreached) node cause hview.symm
  obtain ⟨stems, hstems⟩ := Scan.exists_stems hentries hnone extension
  refine ⟨stems, hstems, fun stem => ?_⟩
  rw [Scan.mem_stems_iff hentries hstems]
  constructor
  · rintro ⟨names, name, hreached, hlast, rfl, hne, hdot⟩
    obtain ⟨node, hnode, hview⟩ := fs.exists_reached_of_viewAll hreached
    refine ⟨hne, hdot, names, node, hnode, hlast, ?_⟩
    exact (fs.view_eq_file_iff (hopen.within _ _ hnode)).mp hview.symm
  · rintro ⟨hne, hdot, names, node, hnode, hlast, hregular⟩
    have hview : fs.view (dir.along names) node = .file :=
      (fs.view_eq_file_iff (hopen.within _ _ hnode)).mpr hregular
    have hreached := fs.reached_viewAll hopen.within hnode
    rw [hview] at hreached
    exact ⟨names, _, hreached, hlast, rfl, hne, hdot⟩

end FileSystem

/-! ## What the collectors choose -/

theorem endsIn_iff {text ending : String} :
    endsIn text ending = true ↔ ending.toList <:+ text.toList :=
  List.isSuffixOf_iff_suffix

namespace Collect

/-- **A stem that ends as commands do is one of a command**: what handles or validates one
ends otherwise. -/
theorem isCommand_iff {stem : String} :
    isCommand stem = true ↔ "Command".toList <:+ stem.toList := by
  rw [isCommand, Bool.and_eq_true, endsIn_iff]
  refine and_iff_left_of_imp fun hcommand => ?_
  -- of two endings of one text the shorter one ends the other
  have hhandler : ¬"Handler".toList <:+ stem.toList := fun h =>
    absurd (List.suffix_or_suffix_of_suffix hcommand h) (by decide)
  have hvalidator : ¬"Validator".toList <:+ stem.toList := fun h =>
    absurd (List.suffix_or_suffix_of_suffix hcommand h) (by decide)
  rw [← endsIn_iff] at hhandler hvalidator
  simp [hhandler, hvalidator]

theorem isController_iff {layout : Layout} {stem : String} :
    isController layout stem = true ↔
      "Controller".toList <:+ stem.toList ∧ stem ≠ layout.controllerBaseClass := by
  rw [isController, Bool.and_eq_true, endsIn_iff, bne_iff_ne]

section
variable {fs : FileSystem} {depth : Depth} {dir : Path} {nodes : List (FileName × Node)}

/-- What a collector chooses among the stems of a directory. -/
theorem exists_chosen (hopen : fs.Open depth dir nodes) (extension : String)
    (choose : String → Bool) :
    ∃ found, ((Scan.stems fs.disk dir extension depth).result.map fun stems =>
        Identifiers.ofList (stems.filter choose)) = .ok found ∧
      found.Pairwise (· < ·) ∧
      ∀ stem, stem ∈ found ↔ choose stem = true ∧ fs.Source depth dir nodes extension stem := by
  obtain ⟨stems, hstems, hmem⟩ := fs.exists_stems_of_open hopen extension
  refine ⟨_, map_eq_ok_iff.mpr ⟨stems, hstems, rfl⟩, Identifiers.ascending_ofList _, ?_⟩
  intro stem
  rw [Identifiers.mem_ofList, List.mem_filter, hmem, and_comm]

theorem exists_commands (hopen : fs.Open depth dir nodes) (extension : String) :
    ∃ found, (commands fs.disk dir extension depth).result = .ok found ∧
      found.Pairwise (· < ·) ∧
      ∀ stem, stem ∈ found ↔
        "Command".toList <:+ stem.toList ∧ fs.Source depth dir nodes extension stem := by
  obtain ⟨found, hfound, hascending, hmem⟩ := exists_chosen hopen extension isCommand
  refine ⟨found, (result_commands ..).trans hfound, hascending, fun stem => ?_⟩
  rw [hmem, isCommand_iff]

end

/-- **Exactly the sources are collected.**  On every file system, from every directory that
can be opened with all that a scan of it reaches: collecting commands returns the stems of
the sources that end as commands do, each once, and nothing that ends so is left out for
what else it is named.  Collecting controllers returns the stems of the sources directly in
the directory that end as controllers do, but for the class that the others extend.  The
critical commands are the pinned ones, those among the imports at any depth, and those
directly among the reports. -/
theorem exactly_sources_collected (fs : FileSystem) :
    (∀ depth dir nodes, fs.Open depth dir nodes → ∀ extension, ∃ found,
      (commands fs.disk dir extension depth).result = .ok found ∧
        found.Pairwise (· < ·) ∧
        ∀ stem, stem ∈ found ↔
          "Command".toList <:+ stem.toList ∧ fs.Source depth dir nodes extension stem) ∧
    (∀ stem, isCommand stem = true ↔ "Command".toList <:+ stem.toList) ∧
    (∀ layout nodes, fs.Open .shallow (layout.resolve layout.controllersDir) nodes → ∃ found,
      (controllers fs.disk layout).result = .ok found ∧
        found.Pairwise (· < ·) ∧
        ∀ stem, stem ∈ found ↔
          "Controller".toList <:+ stem.toList ∧ stem ≠ layout.controllerBaseClass ∧
            fs.Source .shallow (layout.resolve layout.controllersDir) nodes
              layout.sourceExtension stem) ∧
    (∀ layout imports reports, fs.Open .recursive (layout.resolve layout.importsDir) imports →
      fs.Open .shallow (layout.resolve layout.reportsDir) reports → ∃ found,
        (criticalCommands fs.disk layout).result = .ok found ∧
          found.Pairwise (· < ·) ∧
          ∀ identifier, identifier ∈ found ↔
            identifier ∈ layout.pinnedCommands ∨
            "Command".toList <:+ identifier.toList ∧
              (fs.Source .recursive (layout.resolve layout.importsDir) imports
                  layout.sourceExtension identifier ∨
                fs.Source .shallow (layout.resolve layout.reportsDir) reports
                  layout.sourceExtension identifier)) := by
  refine ⟨fun depth dir nodes hopen extension => exists_commands hopen extension,
    fun stem => isCommand_iff, fun layout nodes hopen => ?_, ?_⟩
  · obtain ⟨found, hfound, hascending, hmem⟩ :=
      exists_chosen hopen layout.sourceExtension (isController layout)
    refine ⟨found, (result_controllers ..).trans hfound, hascending, fun stem => ?_⟩
    rw [hmem, isController_iff, and_assoc]
  · intro layout imports reports himports hreports
    obtain ⟨imported, himported, -, hmemImported⟩ := exists_commands himports layout.sourceExtension
    obtain ⟨reported, hreported, -, hmemReported⟩ := exists_commands hreports layout.sourceExtension
    have hcollect := criticalCommands_ok_iff.mpr ⟨imported, reported, himported, hreported, rfl⟩
    refine ⟨_, hcollect, ?_, fun identifier => ?_⟩
    · exact @ascending_ofCategory _ _ .criticalCommands _ hcollect
    · rw [mem_criticalCommands, hmemImported, hmemReported, and_or_left]

/-- A directory with a file, a link back to the directory, which is named as a file would
be, and a deeper directory with a link to the file. -/
def linkedNodes : List (FileName × Node) :=
  [(Text.encode "AgainCommand.cs", .link (.ofString "/commands")),
    (Text.encode "PingCommand.cs", .file []),
    (Text.encode "deep",
      .directory [(Text.encode "PongCommand.cs", .link (.ofString "../PingCommand.cs"))])]

/-- The file system with that directory alone. -/
def linked : FileSystem where
  current := []
  root := .directory [(Text.encode "commands", .directory linkedNodes)]

/-- The layout that looks for everything in that directory, and pins nothing. -/
def linkedLayout : Layout :=
  { Layout.standard (.ofString "/") with
    controllersDir := .ofString "commands"
    importsDir := .ofString "commands"
    reportsDir := .ofString "commands"
    pinnedCommands := [] }

theorem open_linked : linked.Open .recursive (.ofString "/commands") linkedNodes where
  here := rfl
  within names node h := by
    rcases h with hmem | ⟨-, hmem, hinside, h⟩
    · simp only [linkedNodes, List.mem_cons, Prod.mk.injEq, List.not_mem_nil, or_false] at hmem
      rcases hmem with ⟨rfl, -⟩ | ⟨rfl, -⟩ | ⟨rfl, -⟩ <;> decide
    · simp only [linkedNodes, List.mem_cons, Prod.mk.injEq, List.not_mem_nil, or_false] at hmem
      rcases hmem with ⟨rfl, rfl⟩ | ⟨rfl, rfl⟩ | ⟨rfl, rfl⟩
      · cases hinside
      · cases hinside
      · obtain rfl := Option.some.inj hinside
        rcases h with hmem | ⟨-, hmem, hinside, -⟩
        · obtain ⟨rfl, -⟩ := Prod.mk.inj (List.mem_singleton.mp hmem)
          decide
        · obtain ⟨-, rfl⟩ := Prod.mk.inj (List.mem_singleton.mp hmem)
          cases hinside

/-- The file and the link to it are sources of their own names, also of critical commands
though not of controllers; the link to the directory is none, and the link to the file is
not found from the top. -/
theorem collected_linked :
    linked.Open .recursive (.ofString "/commands") linkedNodes ∧
      linked.Source .recursive (.ofString "/commands") linkedNodes "cs" "PongCommand" ∧
      ¬linked.Source .recursive (.ofString "/commands") linkedNodes "cs" "AgainCommand" ∧
      ¬linked.Source .shallow (.ofString "/commands") linkedNodes "cs" "PongCommand" ∧
      (∃ found, (controllers linked.disk linkedLayout).result = .ok found ∧
        "PongCommand" ∉ found) ∧
      ∃ found, (criticalCommands linked.disk linkedLayout).result = .ok found ∧
        "PongCommand" ∈ found := by
  obtain ⟨hcommands, -, hcontrollers, hcritical⟩ := exactly_sources_collected linked
  have hdeep : (commands linked.disk (.ofString "/commands") "cs" .recursive).result =
      .ok ["PingCommand", "PongCommand"] := rfl
  have hshallow : (commands linked.disk (.ofString "/commands") "cs" .shallow).result =
      .ok ["PingCommand"] := rfl
  have hpong : "Command".toList <:+ "PongCommand".toList := by decide
  have hagain : "Command".toList <:+ "AgainCommand".toList := by decide
  obtain ⟨found, hfound, -, hmem⟩ := hcommands _ _ _ open_linked "cs"
  obtain rfl := Except.ok.inj (hdeep.symm.trans hfound)
  obtain ⟨top, htop, -, hmemTop⟩ := hcommands _ _ _ open_linked.shallow "cs"
  obtain rfl := Except.ok.inj (hshallow.symm.trans htop)
  obtain ⟨controllers, hfoundControllers, -, hmemControllers⟩ :=
    hcontrollers linkedLayout linkedNodes open_linked.shallow
  obtain ⟨critical, hfoundCritical, -, hmemCritical⟩ :=
    hcritical linkedLayout linkedNodes linkedNodes open_linked open_linked.shallow
  have hsource := ((hmem "PongCommand").mp (by simp)).2
  refine ⟨open_linked, hsource, fun h => ?_, fun h => ?_, ⟨_, hfoundControllers, fun h => ?_⟩,
    _, hfoundCritical, (hmemCritical _).mpr (Or.inr ⟨hpong, Or.inl hsource⟩)⟩
  · have hfalse := (hmem _).mpr ⟨hagain, h⟩
    simp at hfalse
  · have hfalse := (hmemTop _).mpr ⟨hpong, h⟩
    simp at hfalse
  · exact absurd ((hmemControllers _).mp h).1 (by decide)

end Collect
end DocCoverage
