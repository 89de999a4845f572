import DocCoverage.FileSystem.Resolve

/-!
A file system in memory as a disk: what a run learns when it reads a file or lists a directory. A path of
more bytes than a path may have leads nowhere, so below a long enough chain of directories files are no
longer seen as files, and directories can no longer be opened.
-/

namespace DocCoverage.FileSystem

/-- The text of the file at a path. Reading a device gives the empty text. -/
def readText (fs : FileSystem) (path : Path) : Except Cause String :=
  match fs.locate path with
  | .error cause => .error cause
  | .ok (.file content) =>
    match Text.decode? content with
    | some text => .ok text
    | none => .error .notText
  | .ok .device => .ok ""
  | .ok (.link _) => .error .tooManyLinks
  | .ok (.directory _) => .error .isADirectory

/-- The path leads to a node of any kind. -/
def leadsSomewhere (fs : FileSystem) (path : Path) : Bool :=
  (fs.locate path).isOk

/-- The path leads to a regular file. -/
def isFile (fs : FileSystem) (path : Path) : Bool :=
  match fs.locate path with
  | .ok (.file _) => true
  | _ => false

mutual

/-- What a scan sees of the node that stands at a path. -/
def view (fs : FileSystem) (path : Path) : Node → Entry
  | .file _ => if path.bytes.length ≤ maxPath then .file else .other
  | .device => .other
  | .link _ => if fs.isFile path then .file else .other
  | .directory entries =>
    if path.bytes.length ≤ maxPath then .directory (viewAll fs path entries)
    else .closed .nameTooLong

/-- What a scan sees of the entries of the directory at a path. -/
def viewAll (fs : FileSystem) (path : Path) : List (FileName × Node) → List (FileName × Entry)
  | [] => []
  | (name, node) :: rest =>
    (name, view fs (path.join (.ofName name)) node) :: viewAll fs path rest

end

/-- The entries of the directory at a path. -/
def entries (fs : FileSystem) (path : Path) : Except Cause (List (FileName × Entry)) :=
  match fs.locate path with
  | .error cause => .error cause
  | .ok (.directory entries) => .ok (viewAll fs path entries)
  | .ok _ => .error .notADirectory

/-- The answers of a file system. -/
def disk (fs : FileSystem) : Disk where
  leadsSomewhere := fs.leadsSomewhere
  readText := fs.readText
  entries := fs.entries

end DocCoverage.FileSystem
