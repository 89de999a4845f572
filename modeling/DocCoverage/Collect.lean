import DocCoverage.Declaration
import DocCoverage.Layout
import DocCoverage.Scan

/-!
Collecting the identifiers of a category. Controllers and commands are source files by the naming
convention, policies are declared names, and critical commands are those pinned by the layout together
with the commands found, deep among the imports and at the top among the reports.
-/

namespace DocCoverage

/-- The text ends in the given one. -/
def endsIn (text ending : String) : Bool := ending.toList.isSuffixOf text.toList

namespace Collect

/-- A controller is named so, and is not the class that the others extend. -/
def isController (layout : Layout) (stem : String) : Bool :=
  endsIn stem "Controller" && stem != layout.controllerBaseClass

/-- A command is named so. What handles or validates one is named for that and is no command. -/
def isCommand (stem : String) : Bool :=
  endsIn stem "Command" && !(endsIn stem "Handler" || endsIn stem "Validator")

/-- The controllers, directly in their directory. -/
def controllers (disk : Disk) (layout : Layout) : Traced (List String) := do
  let dir := layout.resolve layout.controllersDir
  let stems ← Scan.stems disk dir layout.sourceExtension .shallow
  let found := Identifiers.ofList (stems.filter (isController layout))
  if found = [] then Traced.report (.noControllers dir)
  return found

/-- The declared policies. -/
def policies (disk : Disk) (layout : Layout) : Traced (List String) := do
  let file := layout.resolve layout.policiesFile
  let source ← Traced.ofDisk file (disk.readText file)
  let found := declaredNames source layout.policyBeginning
  Traced.report (.policiesCollected file found.length)
  return found

/-- The commands of one directory. -/
def commands (disk : Disk) (dir : Path) (extension : String) (depth : Depth) :
    Traced (List String) := do
  let stems ← Scan.stems disk dir extension depth
  let found := Identifiers.ofList (stems.filter isCommand)
  Traced.report (.commandsCollected dir depth found.length)
  return found

/-- The pinned commands and those of the imports and the reports. -/
def criticalCommands (disk : Disk) (layout : Layout) : Traced (List String) := do
  let extension := layout.sourceExtension
  let imported ← commands disk (layout.resolve layout.importsDir) extension .recursive
  let reported ← commands disk (layout.resolve layout.reportsDir) extension .shallow
  let pinned := Identifiers.ofList layout.pinnedCommands
  return Identifiers.union pinned (Identifiers.union imported reported)

/-- The identifiers of a category. -/
def ofCategory (disk : Disk) (layout : Layout) : Category → Traced (List String)
  | .controllers => controllers disk layout
  | .policies => policies disk layout
  | .criticalCommands => criticalCommands disk layout

end Collect
end DocCoverage
