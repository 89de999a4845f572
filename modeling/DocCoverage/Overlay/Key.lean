import DocCoverage.Layout

/-!
The keys of an overlay: one for each setting that an overlay can change.
-/

namespace DocCoverage.Overlay

/-- A key stands for a setting with a text, or for the list of pinned commands. -/
inductive Key
  | text (setting : TextSetting)
  | commands
deriving DecidableEq, Repr

namespace Key

/-- How a key is spelled. -/
def name : Key → String
  | text (.path .controllersDir) => "controllers_dir"
  | text (.path .policiesFile) => "policies_file"
  | text (.path .importsDir) => "imports_dir"
  | text (.path .reportsDir) => "reports_dir"
  | text (.path .apiDoc) => "api_doc"
  | text (.path .applicationDoc) => "application_doc"
  | text .sourceExtension => "source_extension"
  | text .controllerBaseClass => "controller_base_class"
  | text .policyBeginning => "policy_prefix"
  | commands => "critical_manual_commands"

/-- All keys. -/
def all : List Key :=
  [text (.path .controllersDir), text (.path .policiesFile), text (.path .importsDir),
    text (.path .reportsDir), text (.path .apiDoc), text (.path .applicationDoc),
    text .sourceExtension, text .controllerBaseClass, text .policyBeginning, commands]

/-- The key of a spelling. -/
def ofName? (spelling : String) : Option Key := all.find? fun key => key.name == spelling

/-- The list of keys is complete. -/
theorem mem_all (key : Key) : key ∈ all := by
  rcases key with (setting | _ | _ | _) | _
  · cases setting <;> decide
  all_goals decide

/-- A key is found by its name. -/
@[simp]
theorem ofName?_name (key : Key) : ofName? key.name = some key := by
  rcases key with (setting | _ | _ | _) | _
  · cases setting <;> decide
  all_goals decide

end Key

/-- The key under which a setting is given. -/
def keyOf : Setting → Key
  | .text setting _ => .text setting
  | .commands _ => .commands

end DocCoverage.Overlay
