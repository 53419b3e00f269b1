import AnalyzerGlue.Path

/-!
# Access to files

A run of the command does not say where its files are: it works with any means
to read and write them.  What can go wrong is the same everywhere, and so is
its wording.
-/

namespace AnalyzerGlue.Command

/-- The reasons why a file cannot be accessed. -/
inductive FileFault where
  | missing
  | denied
  | notDirectory
  | isDirectory
  | nameTooLong
  | nulInName
  | notText
  /-- A reason without a wording of its own. -/
  | other (wording : String)
deriving DecidableEq, Repr

/-- The wording of a reason. -/
def FileFault.message : FileFault → String
  | .missing => "No such file or directory (os error 2)"
  | .denied => "Permission denied (os error 13)"
  | .notDirectory => "Not a directory (os error 20)"
  | .isDirectory => "Is a directory (os error 21)"
  | .nameTooLong => "File name too long (os error 36)"
  | .nulInName => "file name contained an unexpected NUL byte"
  | .notText => "stream did not contain valid UTF-8"
  | .other wording => wording

/-- Means to access files.  Reading yields the text of a file, and writing puts
a text in its place. -/
structure Files (m : Type → Type) where
  read : Path → m (Except FileFault String)
  write : Path → String → m (Except FileFault Unit)

end AnalyzerGlue.Command
