import DocCoverage.Text.Utf8

/-!
Paths and file names as the bytes that spell them. Joining changes nothing about either path: no step is
resolved and no slash is merged, so a message shows a path as it was configured. The stem and extension
of a file name are what lies before and behind its last dot.
-/

namespace DocCoverage

open Text

/-- The name of one directory entry: bytes without a slash. -/
abbrev FileName := List UInt8

namespace FileName

/-- The byte of a dot. -/
def dot : UInt8 := 0x2e

/-- Cuts a name at its last dot. -/
def cutAtLastDot : FileName → Option (FileName × FileName)
  | [] => none
  | b :: rest =>
    match cutAtLastDot rest with
    | some (stem, extension) => some (b :: stem, extension)
    | none => if b = dot then some ([], rest) else none

/-- The stem and the extension of a name. A name without a dot, or with no other dot than its first
character, has no extension. -/
def stemAndExtension? (name : FileName) : Option (FileName × FileName) :=
  match cutAtLastDot name with
  | some ([], _) => none
  | cut => cut

end FileName

/-- A path as it was given. -/
structure Path where
  bytes : List UInt8
deriving DecidableEq, Repr

/-- One step of a walk along a path. -/
inductive Step
  | here
  | up
  | down (name : FileName)
deriving DecidableEq, Repr

namespace Path

/-- The byte of a slash. -/
def slash : UInt8 := 0x2f

/-- The path that a text spells. -/
def ofString (s : String) : Path := ⟨encode s⟩

/-- The path of one file name. -/
def ofName (name : FileName) : Path := ⟨name⟩

/-- A path for a reader's eyes. -/
def display (p : Path) : String := Text.display p.bytes

/-- The path begins at the root of the file system. -/
def isAbsolute (p : Path) : Bool := p.bytes.head? == some slash

/-- The second path as seen from the first. An absolute path is the same from everywhere. -/
def join (base p : Path) : Path :=
  if p.isAbsolute then p
  else if base.bytes = [] ∨ base.bytes.getLast? = some slash then ⟨base.bytes ++ p.bytes⟩
  else ⟨base.bytes ++ slash :: p.bytes⟩

/-- Cuts bytes at every slash. -/
def pieces : List UInt8 → List FileName
  | [] => [[]]
  | b :: rest =>
    if b = slash then [] :: pieces rest
    else
      match pieces rest with
      | [] => [[b]]
      | piece :: more => (b :: piece) :: more

/-- What a piece between two slashes asks for. -/
def stepOf (piece : FileName) : Option Step :=
  if piece = [] then none
  else if piece = [FileName.dot] then some .here
  else if piece = [FileName.dot, FileName.dot] then some .up
  else some (.down piece)

/-- The steps of a path. Slashes in a row count as one, and a slash at the end asks, like a final dot,
that what stands before it be a directory. -/
def steps (p : Path) : List Step :=
  (pieces p.bytes).filterMap stepOf ++ if p.bytes.getLast? = some slash then [.here] else []

/-- A path made of a text is shown as that text. -/
@[simp]
theorem display_ofString (s : String) : (ofString s).display = s := by
  simp [display, ofString]

end Path
end DocCoverage
