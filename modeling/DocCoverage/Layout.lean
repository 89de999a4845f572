import DocCoverage.Category
import DocCoverage.Text.Blank

/-!
The layout of a repository: where the sources and the documents lie, how source files are named, and
which commands are critical wherever they are declared. An overlay changes a layout setting by setting.
-/

namespace DocCoverage

open Text

/-- The paths but the root are relative to the root. -/
structure Layout where
  root : Path
  controllersDir : Path
  policiesFile : Path
  importsDir : Path
  reportsDir : Path
  apiDoc : Path
  applicationDoc : Path
  sourceExtension : String
  controllerBaseClass : String
  policyBeginning : String
  pinnedCommands : List String
deriving DecidableEq, Repr

/-- The settings that say where something lies. -/
inductive PathSetting
  | controllersDir
  | policiesFile
  | importsDir
  | reportsDir
  | apiDoc
  | applicationDoc
deriving DecidableEq, Repr

/-- The settings that one text can give: the paths, and what is a text itself. -/
inductive TextSetting
  | path (setting : PathSetting)
  | sourceExtension
  | controllerBaseClass
  | policyBeginning
deriving DecidableEq, Repr

/-- A setting with its value. -/
inductive Setting
  | text (setting : TextSetting) (value : String)
  | commands (names : List String)
deriving DecidableEq, Repr

namespace Layout

/-- The layout of the repository at a root as long as nothing else is said. -/
def standard (root : Path) : Layout where
  root := root
  controllersDir := .ofString "src/TowerOps.Api/Controllers"
  policiesFile := .ofString "src/TowerOps.Api/Authorization/ApiAuthorizationPolicies.cs"
  importsDir := .ofString "src/TowerOps.Application/Commands/Imports"
  reportsDir := .ofString "src/TowerOps.Application/Commands/Reports"
  apiDoc := .ofString "docs/Api-Doc.md"
  applicationDoc := .ofString "docs/Application-Doc.md"
  sourceExtension := "cs"
  controllerBaseClass := "ApiControllerBase"
  policyBeginning := "Can"
  pinnedCommands :=
    ["LogAuditEntryCommand", "CreateApprovalRecordCommand", "SubmitForCustomerAcceptanceCommand",
      "AcceptByCustomerCommand", "RejectByCustomerCommand"]

/-- A configured path as it is opened. -/
def resolve (layout : Layout) (path : Path) : Path := layout.root.join path

/-- The configured path of a document. -/
def documentPath (layout : Layout) : DocumentKind → Path
  | .api => layout.apiDoc
  | .application => layout.applicationDoc

/-- The configured path that a setting names. -/
def pathOf (layout : Layout) : PathSetting → Path
  | .controllersDir => layout.controllersDir
  | .policiesFile => layout.policiesFile
  | .importsDir => layout.importsDir
  | .reportsDir => layout.reportsDir
  | .apiDoc => layout.apiDoc
  | .applicationDoc => layout.applicationDoc

/-- The layout with one path replaced. -/
def place (layout : Layout) : PathSetting → Path → Layout
  | .controllersDir, path => { layout with controllersDir := path }
  | .policiesFile, path => { layout with policiesFile := path }
  | .importsDir, path => { layout with importsDir := path }
  | .reportsDir, path => { layout with reportsDir := path }
  | .apiDoc, path => { layout with apiDoc := path }
  | .applicationDoc, path => { layout with applicationDoc := path }

/-- The layout with one setting replaced by a value, as it is. -/
def assign (layout : Layout) : Setting → Layout
  | .text (.path setting) value => layout.place setting (.ofString value)
  | .text .sourceExtension value => { layout with sourceExtension := value }
  | .text .controllerBaseClass value => { layout with controllerBaseClass := value }
  | .text .policyBeginning value => { layout with policyBeginning := value }
  | .commands names => { layout with pinnedCommands := names }

end Layout

namespace Setting

/-- An extension without the dots at its beginning. -/
def withoutDots (extension : String) : String :=
  String.ofList (extension.toList.dropWhile (· == '.'))

/-- The names without the blanks around them, and without those that are nothing else. -/
def trimmed (names : List String) : List String :=
  (names.map fun name => String.ofList (trimBlanks name.toList)).filter (· ≠ "")

/-- The setting as an overlay means it: an extension may be written with its dot, and command names are
trimmed. -/
def tidied : Setting → Setting
  | text .sourceExtension value => text .sourceExtension (withoutDots value)
  | text setting value => text setting value
  | commands names => commands (trimmed names)

end Setting

/-- The layout under an overlay. -/
def Layout.overlaid (layout : Layout) (settings : List Setting) : Layout :=
  settings.foldl (fun layout setting => layout.assign setting.tidied) layout

end DocCoverage
