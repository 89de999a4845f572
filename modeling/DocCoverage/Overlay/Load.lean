import DocCoverage.Log.Traced
import DocCoverage.Overlay.Reader

/-!
The layout of a run: the standard one, under the overlay that the user names or, when none is named,
under the one at the root of the repository, if there is one.
-/

namespace DocCoverage.Layout

/-- The name of an overlay at the root of a repository. -/
def overlayName : String := "docdrift.toml"

/-- The layout of the repository at a root under the overlay at a path. -/
def loadOverlay (disk : Disk) (root config : Path) : Traced Layout := do
  let text ← Traced.ofDisk config (disk.readText config)
  match Overlay.read? text with
  | none => Traced.fail (.config config text)
  | some settings =>
    Traced.report (.overlayApplied config)
    return (standard root).overlaid settings

/-- The layout of the repository at a root. An overlay that is named must be there. -/
def load (disk : Disk) (root : Path) (config : Option Path) : Traced Layout :=
  match config with
  | some config => loadOverlay disk root config
  | none =>
    let config := root.join (.ofString overlayName)
    if disk.leadsSomewhere config then loadOverlay disk root config
    else do
      Traced.report (.noOverlay root)
      return standard root

end DocCoverage.Layout
