import DocCoverage.Disk
import DocCoverage.Log.Traced

/-!
Scans of directories for source files. A scan visits the entries of a directory in the order of their
names, and below each directory, when it goes deep, that directory's entries before the next name. It
gives the stems of the files that have the wanted extension.
-/

namespace DocCoverage

open Text

/-- What a scan meets: a file, or a directory that it should look into and cannot open, with the cause. -/
inductive Finding
  | file (path : Path) (name : FileName)
  | closed (path : Path) (cause : Cause)
deriving DecidableEq, Repr

namespace Finding

/-- Puts what stands under a name in front of the first name that is not before it. -/
def insertByName {α : Type} (x : FileName × α) : List (FileName × α) → List (FileName × α)
  | [] => [x]
  | y :: rest => if y.1 < x.1 then y :: insertByName x rest else x :: y :: rest

/-- The given findings under each name, in the order of the names. -/
def inNameOrder (findings : List (FileName × List Finding)) : List Finding :=
  (findings.foldr insertByName []).flatMap Prod.snd

mutual

/-- What a scan meets at an entry that stands at a path under a name. -/
def atEntry (depth : Depth) (path : Path) (name : FileName) : Entry → List Finding
  | .file => [file path name]
  | .other => []
  | .closed cause =>
    match depth with
    | .shallow => []
    | .recursive => [closed path cause]
  | .directory entries =>
    match depth with
    | .shallow => []
    | .recursive => inNameOrder (underNames .recursive path entries)

/-- What a scan meets under each name of the directory at a path. -/
def underNames (depth : Depth) (dir : Path) :
    List (FileName × Entry) → List (FileName × List Finding)
  | [] => []
  | (name, entry) :: rest =>
    (name, atEntry depth (dir.join (.ofName name)) name entry) :: underNames depth dir rest

end

/-- What a scan of the directory at a path meets, in order. -/
def inDirectory (depth : Depth) (dir : Path) (entries : List (FileName × Entry)) : List Finding :=
  inNameOrder (underNames depth dir entries)

end Finding

namespace Scan

/-- The stem of a file with the wanted extension. One that is no text, or an empty one, is reported and
left out. -/
def stemOf (extension : String) (path : Path) (name : FileName) : Traced (Option String) :=
  match FileName.stemAndExtension? name with
  | none => pure none
  | some (stem, found) =>
    if found = encode extension then
      match (decode? stem).filter (· ≠ "") with
      | some stem => pure (some stem)
      | none => do
        Traced.report (.nameSkipped path)
        return none
    else pure none

/-- The stems of the files met in a scan of a directory, up to the first directory that cannot be
opened. -/
def stemsOf (dir : Path) (extension : String) : List Finding → Traced (List String)
  | [] => pure []
  | .closed path cause :: _ => Traced.fail (.walk dir path cause)
  | .file path name :: rest => do
    let stem ← stemOf extension path name
    let stems ← stemsOf dir extension rest
    return stem.toList ++ stems

/-- The stems of the source files in a directory. A directory that cannot be listed is a missing
input and never an empty one. -/
def stems (disk : Disk) (dir : Path) (extension : String) (depth : Depth) :
    Traced (List String) := do
  let entries ← Traced.ofDisk dir (disk.entries dir)
  stemsOf dir extension (Finding.inDirectory depth dir entries)

end Scan
end DocCoverage
