import DocCoverage.Proofs.FirstFault
import DocCoverage.Proofs.LoadedLayout
import DocCoverage.Proofs.Sources

/-! # Files that follow the naming convention

A source of a stem is named by the stem, a dot and the configured extension.  A scan takes
for the extension of a file what stands behind the last dot of its name, so it agrees with
the configured one as long as that has no dot itself; of an extension with a dot no file is
a source (`FileSystem.source_iff_named`).  An overlay may give such an extension: only the
dots at its beginning are dropped (`Layout.extension_of_load`).  So the files that follow the
convention are collected exactly when the extension has no dot inside
(`Collect.conventional_files_collected_iff`), and otherwise none of them is, and nothing is
reported (`Collect.generated_files_lost`). -/

namespace DocCoverage

namespace FileSystem

variable (fs : FileSystem)

/-- A scan of the directory reaches a regular file, or a link to one, under the name. -/
def Named (depth : Depth) (dir : Path) (nodes : List (FileName × Node)) (name : String) : Prop :=
  ∃ names node, Reached Node.entries? depth nodes names node ∧
    names.getLast? = some (Text.encode name) ∧ fs.Regular (dir.along names) node

/-- **The sources of a stem are the files that are named for it**, if the extension has no
dot. -/
theorem source_iff_named {depth : Depth} {dir : Path} {nodes : List (FileName × Node)}
    {extension stem : String} : fs.Source depth dir nodes extension stem ↔
      stem ≠ "" ∧ '.' ∉ extension.toList ∧ fs.Named depth dir nodes (stem ++ "." ++ extension) :=
  Iff.rfl

variable {fs} in
/-- A directory of files at paths that are short enough can be opened. -/
theorem open_of_files {depth : Depth} {dir : Path} {nodes : List (FileName × Node)}
    (here : fs.locate dir = .ok (.directory nodes))
    (hfiles : ∀ entry ∈ nodes, entry.2.entries? = none)
    (hlength : ∀ entry ∈ nodes, (dir.join (.ofName entry.1)).bytes.length ≤ maxPath) :
    fs.Open depth dir nodes where
  here := here
  within names node h := by
    cases h with
    | here hmem => exact hlength _ hmem
    | deeper _ hmem hinside =>
      rw [hfiles _ hmem] at hinside
      cases hinside

end FileSystem

/-- **The extension of a layout that loads** is the standard one or one that its overlay
gives, without the dots at its beginning. -/
theorem Layout.extension_of_load {disk : Disk} {root : Path} {config : Option Path}
    {layout : Layout} (h : (load disk root config).result = .ok layout) :
    ∃ given, (disk.overlayText? root config).elim (some []) Overlay.read? = some given ∧
      ((layout.sourceExtension = "cs" ∧ ∀ value, .text .sourceExtension value ∉ given) ∨
        ∃ value, .text .sourceExtension value ∈ given ∧
          DropsDots value layout.sourceExtension) := by
  obtain ⟨given, hgiven, rfl⟩ := exists_settings_of_load h
  exact ⟨given, hgiven, sourceExtension_overlaid given (standard root)⟩

namespace Collect

section
variable {fs : FileSystem} {layout : Layout} {stem : String}

/-- A stem with an ending is not empty. -/
theorem ne_empty_of_suffix {ending : String} (hending : ending ≠ "")
    (h : ending.toList <:+ stem.toList) : stem ≠ "" := by
  rintro rfl
  exact hending (String.toList_injective (List.suffix_nil.mp h))

/-- A file that is named for a stem is a source of it exactly when the extension has no
dot. -/
theorem source_iff_of_named {depth : Depth} {dir : Path} {nodes : List (FileName × Node)}
    {extension : String} (hstem : stem ≠ "")
    (hnamed : fs.Named depth dir nodes (stem ++ "." ++ extension)) :
    fs.Source depth dir nodes extension stem ↔ '.' ∉ extension.toList := by
  rw [fs.source_iff_named]
  constructor
  · exact fun h => h.2.1
  · exact fun hdot => ⟨hstem, hdot, hnamed⟩

theorem named_controller_collected_iff {nodes : List (FileName × Node)}
    (hopen : fs.Open .shallow (layout.resolve layout.controllersDir) nodes)
    (hnamed : fs.Named .shallow (layout.resolve layout.controllersDir) nodes
      (stem ++ "." ++ layout.sourceExtension))
    (hending : "Controller".toList <:+ stem.toList) (hbase : stem ≠ layout.controllerBaseClass) :
    ∃ found, (controllers fs.disk layout).result = .ok found ∧
      (stem ∈ found ↔ '.' ∉ layout.sourceExtension.toList) := by
  obtain ⟨found, hfound, -, hmem⟩ :=
    exists_chosen hopen layout.sourceExtension (isController layout)
  refine ⟨found, (result_controllers ..).trans hfound, ?_⟩
  have hstem := ne_empty_of_suffix (by decide) hending
  rw [hmem, source_iff_of_named hstem hnamed]
  exact and_iff_right (isController_iff.mpr ⟨hending, hbase⟩)

theorem named_command_collected_iff {imports reports : List (FileName × Node)}
    (himports : fs.Open .recursive (layout.resolve layout.importsDir) imports)
    (hreports : fs.Open .shallow (layout.resolve layout.reportsDir) reports)
    (hnamed : fs.Named .recursive (layout.resolve layout.importsDir) imports
        (stem ++ "." ++ layout.sourceExtension) ∨
      fs.Named .shallow (layout.resolve layout.reportsDir) reports
        (stem ++ "." ++ layout.sourceExtension))
    (hending : "Command".toList <:+ stem.toList) :
    ∃ found, (criticalCommands fs.disk layout).result = .ok found ∧
      (stem ∈ found ↔ stem ∈ layout.pinnedCommands ∨ '.' ∉ layout.sourceExtension.toList) := by
  obtain ⟨imported, himported, -, hmemImported⟩ := exists_commands himports layout.sourceExtension
  obtain ⟨reported, hreported, -, hmemReported⟩ := exists_commands hreports layout.sourceExtension
  refine ⟨_, criticalCommands_ok_iff.mpr ⟨imported, reported, himported, hreported, rfl⟩, ?_⟩
  rw [mem_criticalCommands, hmemImported, hmemReported, ← and_or_left, and_iff_right hending]
  have hstem := ne_empty_of_suffix (by decide) hending
  refine or_congr_right ⟨?_, ?_⟩
  · -- a source on either side has an extension without a dot
    rintro (hsource | hsource)
    · exact hsource.2.1
    · exact hsource.2.1
  · intro hdot
    rcases hnamed with hnamed | hnamed
    · exact Or.inl ((source_iff_of_named hstem hnamed).mpr hdot)
    · exact Or.inr ((source_iff_of_named hstem hnamed).mpr hdot)

end

/-- **Files that follow the convention are collected unless the extension has a dot.**  The
extension of a layout that loads is the standard one, or one that its overlay gives without
the dots at its beginning.  A file, named by a stem, a dot and that extension, is collected
as a controller, when it lies directly in the directory of the controllers and its stem ends
as theirs do and is not that of their base class, exactly if the extension has no dot.  The
stem of one that ends as commands do and lies anywhere below the imports, or directly among
the reports, is collected exactly if the extension has no dot or the command is pinned. -/
theorem conventional_files_collected_iff {fs : FileSystem} {root : Path} {config : Option Path}
    {layout : Layout} (hload : (Layout.load fs.disk root config).result = .ok layout) :
    (∃ given, (fs.disk.overlayText? root config).elim (some []) Overlay.read? = some given ∧
      ((layout.sourceExtension = "cs" ∧ ∀ value, .text .sourceExtension value ∉ given) ∨
        ∃ value, .text .sourceExtension value ∈ given ∧
          DropsDots value layout.sourceExtension)) ∧
    (∀ nodes stem, fs.Open .shallow (layout.resolve layout.controllersDir) nodes →
      fs.Named .shallow (layout.resolve layout.controllersDir) nodes
        (stem ++ "." ++ layout.sourceExtension) →
      "Controller".toList <:+ stem.toList → stem ≠ layout.controllerBaseClass →
      ∃ found, (controllers fs.disk layout).result = .ok found ∧
        (stem ∈ found ↔ '.' ∉ layout.sourceExtension.toList)) ∧
    (∀ imports reports stem, fs.Open .recursive (layout.resolve layout.importsDir) imports →
      fs.Open .shallow (layout.resolve layout.reportsDir) reports →
      (fs.Named .recursive (layout.resolve layout.importsDir) imports
          (stem ++ "." ++ layout.sourceExtension) ∨
        fs.Named .shallow (layout.resolve layout.reportsDir) reports
          (stem ++ "." ++ layout.sourceExtension)) →
      "Command".toList <:+ stem.toList →
      ∃ found, (criticalCommands fs.disk layout).result = .ok found ∧
        (stem ∈ found ↔
          stem ∈ layout.pinnedCommands ∨ '.' ∉ layout.sourceExtension.toList)) := by
  refine ⟨Layout.extension_of_load hload, ?_, ?_⟩
  · intro nodes stem
    exact named_controller_collected_iff
  · intro imports reports stem
    exact named_command_collected_iff

/-- Two controllers, one of them in a source that is generated. -/
def twoControllers : List (FileName × Node) :=
  [(Text.encode "SiteController.cs", .file []), (Text.encode "TowerController.g.cs", .file [])]

/-- One command. -/
def oneCommand : List (FileName × Node) := [(Text.encode "PingCommand.cs", .file [])]

/-- A repository with these sources, an overlay that gives the extension of the generated
ones, and another one that gives the standard extension with its dot. -/
def generated : FileSystem where
  current := []
  root := .directory
    [(Text.encode "docdrift.toml", .file (Text.encode "source_extension = \"g.cs\"\n")),
      (Text.encode "plain.toml", .file (Text.encode "source_extension = \".cs\"\n")),
      (Text.encode "src", .directory
        [(Text.encode "TowerOps.Api", .directory
          [(Text.encode "Controllers", .directory twoControllers)]),
        (Text.encode "TowerOps.Application", .directory
          [(Text.encode "Commands", .directory
            [(Text.encode "Imports", .directory oneCommand),
              (Text.encode "Reports", .directory [])])])])]

/-- The standard layout with another extension. -/
def withExtension (extension : String) : Layout :=
  { Layout.standard (.ofString ".") with sourceExtension := extension }

theorem load_plain :
    (Layout.load generated.disk (.ofString ".") (some (.ofString "plain.toml"))).result =
      .ok (withExtension "cs") := by
  have hread : generated.disk.readText (.ofString "plain.toml") =
      .ok "source_extension = \".cs\"\n" := by
    simp only [FileSystem.disk]
    exact FileSystem.readText_of_locate rfl
  have hsettings : Overlay.read? "source_extension = \".cs\"\n" =
      some [.text .sourceExtension ".cs"] := by
    decide +kernel
  exact Layout.result_loadOverlay _ hread hsettings

theorem open_controllers :
    generated.Open .shallow (.ofString "./src/TowerOps.Api/Controllers") twoControllers :=
  FileSystem.open_of_files rfl (by simp [twoControllers, Node.entries?]) (by decide +kernel)

/-- With an extension of one part the files are collected, though the overlay gives it with a
dot. -/
theorem plain_files_collected :
    (Layout.load generated.disk (.ofString ".") (some (.ofString "plain.toml"))).result =
        .ok (withExtension "cs") ∧
      (∃ found, (controllers generated.disk (withExtension "cs")).result = .ok found ∧
        "SiteController" ∈ found) ∧
      ∃ found, (criticalCommands generated.disk (withExtension "cs")).result = .ok found ∧
        "PingCommand" ∈ found := by
  obtain ⟨-, hcontrollers, hcommands⟩ := conventional_files_collected_iff load_plain
  obtain ⟨found, hfound, hmem⟩ := hcontrollers twoControllers "SiteController"
    open_controllers
    ⟨[Text.encode "SiteController.cs"], .file [], .here (by simp [twoControllers]), rfl, .file⟩
    (by decide) (by decide)
  obtain ⟨commands, hcollected, hmemCommands⟩ := hcommands oneCommand [] "PingCommand"
    (FileSystem.open_of_files rfl (by simp [oneCommand, Node.entries?]) (by decide +kernel))
    (FileSystem.open_of_files rfl (by simp) (by simp))
    (Or.inl ⟨[Text.encode "PingCommand.cs"], .file [], .here (by simp [oneCommand]), rfl, .file⟩)
    (by decide)
  exact ⟨load_plain, ⟨found, hfound, hmem.mpr (by decide)⟩,
    commands, hcollected, hmemCommands.mpr (Or.inr (by decide))⟩

/-- **With an extension of two parts nothing is collected.**  The overlay at the root gives
`g.cs`; a controller is named for it and lies in the directory of the controllers, and yet
the set of controllers is empty. -/
theorem generated_files_lost :
    (Layout.load generated.disk (.ofString ".") none).result = .ok (withExtension "g.cs") ∧
      generated.Open .shallow
        ((withExtension "g.cs").resolve (withExtension "g.cs").controllersDir) twoControllers ∧
      (Text.encode ("TowerController" ++ "." ++ (withExtension "g.cs").sourceExtension),
        Node.file []) ∈ twoControllers ∧
      "Controller".toList <:+ "TowerController".toList ∧
      "TowerController" ≠ (withExtension "g.cs").controllerBaseClass ∧
      (controllers generated.disk (withExtension "g.cs")).result = .ok [] := by
  have hthere : generated.disk.leadsSomewhere
      (Path.join (.ofString ".") (.ofString Layout.overlayName)) = true := by decide +kernel
  have hread : generated.disk.readText (Path.join (.ofString ".") (.ofString Layout.overlayName)) =
      .ok "source_extension = \"g.cs\"\n" := by
    simp only [FileSystem.disk]
    exact FileSystem.readText_of_locate rfl
  have hsettings : Overlay.read? "source_extension = \"g.cs\"\n" =
      some [.text .sourceExtension "g.cs"] := by
    decide +kernel
  refine ⟨?_, open_controllers, by simp [twoControllers, withExtension],
    by decide, by decide, rfl⟩
  rw [Layout.load, if_pos hthere]
  exact Layout.result_loadOverlay _ hread hsettings

end Collect
end DocCoverage
