import DocCoverage.Program

/-!
The command line program. It asks the disk all that a run with the given arguments can ask of it, hands
the answers to the run, and prints what the run leaves behind.
-/

namespace DocCoverage

/-- The answers of the real disk that have been asked for. Other paths lead nowhere. -/
structure Answers where
  found : List Path := []
  texts : List (Path × Except Cause String) := []
  listings : List (Path × Except Cause (List (FileName × Entry))) := []

namespace Answers

/-- The disk that answers so. -/
def disk (answers : Answers) : Disk where
  leadsSomewhere path := answers.found.contains path
  readText path := (answers.texts.lookup path).getD (.error .notFound)
  entries path := (answers.listings.lookup path).getD (.error .notFound)

/-- The cause that an error number of the system stands for. Some numbers come negated. -/
def causeOfCode (code : UInt32) (details : String) : Cause :=
  let code := if code < 0x80000000 then code else 0 - code
  match code with
  | 2 => .notFound
  | 20 => .notADirectory
  | 21 => .isADirectory
  | 36 => .nameTooLong
  | 40 => .tooManyLinks
  | _ => .other (details ++ " (os error " ++ toString code ++ ")")

/-- The cause of a refusal by the real disk. -/
def causeOf : IO.Error → Cause
  | .noFileOrDirectory _ code details => causeOfCode code details
  | .inappropriateType _ code details => causeOfCode code details
  | .invalidArgument _ code details => causeOfCode code details
  | .permissionDenied _ code details => causeOfCode code details
  | .resourceExhausted _ code details => causeOfCode code details
  | .noSuchThing _ code details => causeOfCode code details
  | .otherError code details => causeOfCode code details
  | error => .other (toString error)

/-- Asks the real disk, unless the path holds a character that no path can hold. -/
def ask {α : Type} (path : Path) (question : String → IO α) : IO (Except Cause α) := do
  if path.bytes.contains 0 then return .error .nulInPath
  try return .ok (← question path.display)
  catch error => return .error (causeOf error)

/-- The text of a file. -/
def askText (path : Path) : IO (Except Cause String) := do
  match ← ask path fun name => IO.FS.readBinFile name with
  | .error cause => return .error cause
  | .ok bytes =>
    match String.fromUTF8? bytes with
    | some text => return .ok text
    | none => return .error .notText

mutual

/-- The entries of the directory of a name. -/
partial def entriesAt (name : String) : IO (List (FileName × Entry)) := do
  let listed ← ((← IO.currentDir) / name).readDir
  listed.toList.mapM fun child => do
    return (Text.encode child.fileName, ← entryAt (name ++ "/" ++ child.fileName))

/-- What stands under a name. What cannot be inspected is passed over as no file. -/
partial def entryAt (name : String) : IO Entry := do
  let place := (← IO.currentDir) / name
  try
    match (← place.symlinkMetadata).type with
    | .file => return .file
    | .dir =>
      try return .directory (← entriesAt name)
      catch error => return .closed (causeOf error)
    | .symlink => return if (← place.metadata).type == .file then .file else .other
    | .other => return .other
  catch _ => return .other

end

/-- The answers with a file asked for. -/
def withText (answers : Answers) (path : Path) : IO Answers := do
  let answer ← askText path
  return { answers with texts := (path, answer) :: answers.texts }

/-- The answers with a directory asked for. -/
def withListing (answers : Answers) (path : Path) : IO Answers := do
  let answer ← ask path entriesAt
  return { answers with listings := (path, answer) :: answers.listings }

/-- The answers with an overlay asked for. -/
def withOverlay (answers : Answers) (path : Path) : IO Answers := do
  let answers ← answers.withText path
  let found ← ask path fun name => do ((← IO.currentDir) / name).pathExists
  match found with
  | .ok true => return { answers with found := path :: answers.found }
  | _ => return answers

/-- The answers that a run of an invocation can ask for: its overlay, and the inputs of the layout that
the overlay gives. -/
def ofInvocation (invocation : Invocation) : IO Answers := do
  let root := Path.ofString invocation.repo
  let config := invocation.config.map Path.ofString
  let answers : Answers := {}
  let answers ← answers.withOverlay (config.getD (root.join (.ofString Layout.overlayName)))
  match (Layout.load answers.disk root config).result with
  | .error _ => return answers
  | .ok layout =>
    let files := [layout.apiDoc, layout.applicationDoc, layout.policiesFile].map layout.resolve
    let dirs := [layout.controllersDir, layout.importsDir, layout.reportsDir].map layout.resolve
    let answers ← files.foldlM withText answers
    dirs.foldlM withListing answers

end Answers

/-- Runs the program on the real disk, with the filter that the environment sets. -/
def runOnDisk (args : List String) : IO UInt32 := do
  let answers ←
    match Invocation.read args with
    | .ok invocation => Answers.ofInvocation invocation
    | .error _ => pure {}
  let outcome := Program.run .standard answers.disk args (← IO.getEnv "DOCDRIFT_LOG")
  for entry in outcome.log do
    IO.eprintln entry.text
  IO.print outcome.stdout
  return UInt32.ofNat outcome.exit

end DocCoverage

/-- The command line program. -/
def main (args : List String) : IO UInt32 := DocCoverage.runOnDisk args
