import DocCoverage.Path

/-!
The three kinds of identifiers that must be documented, in the order in which they are evaluated, and
the document that each belongs in.
-/

namespace DocCoverage

/-- One of the two documents that are read. -/
inductive DocumentKind
  | api
  | application
deriving DecidableEq, Repr

/-- The word for a document in output that programs read. -/
def DocumentKind.id : DocumentKind → String
  | .api => "api"
  | .application => "application"

/-- A kind of identifier. -/
inductive Category
  | controllers
  | policies
  | criticalCommands
deriving DecidableEq, Repr

namespace Category

/-- All categories, in the order of evaluation. -/
def order : List Category := [controllers, policies, criticalCommands]

/-- The word for a category in output that programs read. -/
def id : Category → String
  | controllers => "controllers"
  | policies => "policies"
  | criticalCommands => "critical_commands"

/-- The word for a category in output that people read. -/
def label : Category → String
  | controllers => "controllers"
  | policies => "policies"
  | criticalCommands => "critical commands"

/-- The document in which the identifiers of a category belong. -/
def document : Category → DocumentKind
  | controllers | policies => .api
  | criticalCommands => .application

/-- The line above the identifiers that a document lacks. -/
def title (category : Category) (document : Path) : String :=
  "Missing " ++ category.label ++ " in " ++ document.display ++ ":"

/-- Every category is evaluated. -/
theorem mem_order (category : Category) : category ∈ order := by
  cases category <;> decide

end Category
end DocCoverage
