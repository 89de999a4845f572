import DocCoverage.Disk
import DocCoverage.FileSystem.Node

/-!
Resolving paths. A path is walked step by step; a link on the way is replaced by its target, which
counts from the directory that holds the link, or from the root. One walk follows at most forty links, a
path has at most 4095 bytes and a name at most 255. So every walk ends, and what it ends at is no link.
-/

namespace DocCoverage.FileSystem

/-- The links that one walk may follow. -/
def maxLinks : Nat := 40

/-- The bytes that a path may have. -/
def maxPath : Nat := 4095

/-- The bytes that a name may have. -/
def maxName : Nat := 255

/-- Walks from a directory along steps. `jump` goes on where a link has been met: from the place where
its target counts from, along its target and what is left of the steps. -/
def walk (root : Node) (jump : Location → List Step → Except Cause Location) :
    Location → List Step → Except Cause Location
  | place, [] => .ok place
  | place, step :: rest =>
    match (root.at? place).bind Node.entries? with
    | none => .error .notADirectory
    | some entries =>
      match step with
      | .here => walk root jump place rest
      | .up => walk root jump place.dropLast rest
      | .down name =>
        if name.length > maxName then .error .nameTooLong
        else
          match entries.lookup name with
          | none => .error .notFound
          | some (.link target) =>
            jump (if target.isAbsolute then [] else place) (target.steps ++ rest)
          | some _ => walk root jump (place ++ [name]) rest

/-- Walks with a number of links left to follow. -/
def follow (root : Node) : Nat → Location → List Step → Except Cause Location
  | 0 => walk root fun _ _ => .error .tooManyLinks
  | links + 1 => walk root (follow root links)

/-- Where a path begins. -/
def start (fs : FileSystem) (path : Path) : Location :=
  if path.isAbsolute then [] else fs.current

/-- The node that a path leads to. -/
def locate (fs : FileSystem) (path : Path) : Except Cause Node :=
  if path.bytes = [] then .error .notFound
  else if 0 ∈ path.bytes then .error .nulInPath
  else if path.bytes.length > maxPath then .error .nameTooLong
  else
    match follow fs.root maxLinks (fs.start path) path.steps with
    | .error cause => .error cause
    | .ok location =>
      match fs.root.at? location with
      | none => .error .notFound
      | some node => .ok node

end DocCoverage.FileSystem
