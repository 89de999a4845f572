import DocCoverage.Path

/-!
What a run can learn from the disk: whether a path leads anywhere, the text of a file, and the tree of
names and kinds below a directory. A run asks these three questions and no other, so two disks that
answer them alike cannot be told apart.
-/

namespace DocCoverage

/-- Why an input cannot be read. -/
inductive Cause
  | notFound
  | notADirectory
  | isADirectory
  | tooManyLinks
  | nameTooLong
  | nulInPath
  | notText
  | other (description : String)
deriving DecidableEq, Repr

/-- The system's words for a cause. -/
def Cause.message : Cause → String
  | .notFound => "No such file or directory (os error 2)"
  | .notADirectory => "Not a directory (os error 20)"
  | .isADirectory => "Is a directory (os error 21)"
  | .tooManyLinks => "Too many levels of symbolic links (os error 40)"
  | .nameTooLong => "File name too long (os error 36)"
  | .nulInPath => "file name contained an unexpected NUL byte"
  | .notText => "stream did not contain valid UTF-8"
  | .other description => description

/-- What one name in a directory stands for: a regular file or a link to one, a directory with its
entries, a directory that cannot be opened, with what the system says to that, or anything else. A link
to a directory is something else: a scan does not follow it. -/
inductive Entry
  | file
  | directory (entries : List (FileName × Entry))
  | closed (cause : Cause)
  | other

/-- The answers of a disk. The entries of a directory come in no particular order. -/
structure Disk where
  leadsSomewhere : Path → Bool
  readText : Path → Except Cause String
  entries : Path → Except Cause (List (FileName × Entry))

end DocCoverage
