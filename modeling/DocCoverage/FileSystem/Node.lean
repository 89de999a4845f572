import DocCoverage.Path

/-!
A file system in memory: a tree of directories, regular files, devices and symbolic links. A location
is the list of names from the root down to a node, without any link on the way.
-/

namespace DocCoverage

/-- What stands under one name. A device is a file without content that is not a regular one. -/
inductive Node
  | file (content : List UInt8)
  | device
  | link (target : Path)
  | directory (entries : List (FileName × Node))

/-- The names from the root down to a node. -/
abbrev Location := List FileName

/-- The tree, and the directory from which relative paths begin. -/
structure FileSystem where
  root : Node
  current : Location

namespace Node

/-- The entries of a directory; other nodes have none to look into. -/
def entries? : Node → Option (List (FileName × Node))
  | directory entries => some entries
  | _ => none

/-- The node at a location below this one. -/
def at? (node : Node) : Location → Option Node
  | [] => some node
  | name :: rest =>
    match node.entries? with
    | none => none
    | some entries =>
      match entries.lookup name with
      | none => none
      | some child => child.at? rest

end Node
end DocCoverage
