import DocCoverage.Collect

/-!
The inventory of a repository: the identifiers of all categories at once, collected in the order of
evaluation, and as rows of a category and an identifier.
-/

namespace DocCoverage

/-- The identifiers of all categories. -/
structure Inventory where
  controllers : List String
  policies : List String
  criticalCommands : List String
deriving DecidableEq, Repr

namespace Inventory

/-- Collects all categories, in the order in which they are evaluated. -/
def collect (disk : Disk) (layout : Layout) : Traced Inventory := do
  let controllers ← Collect.controllers disk layout
  let policies ← Collect.policies disk layout
  let criticalCommands ← Collect.criticalCommands disk layout
  return ⟨controllers, policies, criticalCommands⟩

/-- The identifiers of one category. -/
def identifiers (inventory : Inventory) : Category → List String
  | .controllers => inventory.controllers
  | .policies => inventory.policies
  | .criticalCommands => inventory.criticalCommands

/-- The rows of an inventory: category by category, each identifier. -/
def rows (inventory : Inventory) : List (Category × String) :=
  Category.order.flatMap fun category =>
    (inventory.identifiers category).map fun identifier => (category, identifier)

end Inventory
end DocCoverage
