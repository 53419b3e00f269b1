import AnalyzerGlue.Command.Run
import AnalyzerGlue.Command.Usage

/-!
# The command

Gives a run of the command the files of the machine and the standard channels.
-/

namespace AnalyzerGlue.Command

/-- The reason why a file of the machine cannot be accessed. -/
def faultOf : IO.Error → FileFault
  | .noFileOrDirectory .. | .noSuchThing .. => .missing
  | .permissionDenied .. => .denied
  | .inappropriateType _ _ details =>
      if details.toLower.startsWith "is a" then .isDirectory else .notDirectory
  | .invalidArgument _ _ details =>
      if details.toLower.endsWith "too long" then .nameTooLong else .other details
  | .resourceExhausted _ _ details => .other details
  | error => .other (toString error)

/-- Does something with the file at a path and catches what goes wrong. -/
def attempt {α : Type} (path : Path) (action : IO (Except FileFault α)) :
    IO (Except FileFault α) := do
  if path.hasNul then return .error .nulInName
  try action
  catch error => return .error (faultOf error)

/-- The files of the machine.  If `verbose`, each file that is written is
reported. -/
def machineFiles (verbose : Bool) : Files IO where
  read path := attempt path do
    match String.fromUTF8? (← IO.FS.readBinFile ⟨path.text⟩) with
    | some text => return .ok text
    | none => return .error .notText
  write path text := attempt path do
    IO.FS.writeFile ⟨path.text⟩ text
    if verbose then IO.eprintln ("wrote " ++ path.text)
    return .ok ()

/-- Runs a command line and yields its exit code. -/
def execute (arguments : List String) : IO UInt32 := do
  match Request.ofArguments arguments with
  | .error .help =>
      IO.print helpText
      return 0
  | .error .version =>
      IO.println versionLine
      return 0
  | .error (.misuse fault) =>
      IO.eprint fault.text
      return misuseCode.toUInt32
  | .ok request =>
      let outcome ← run (machineFiles request.verbose) request
      IO.print outcome.output
      IO.eprint outcome.errorText
      return outcome.exitCode.toUInt32

end AnalyzerGlue.Command

def main (arguments : List String) : IO UInt32 :=
  AnalyzerGlue.Command.execute arguments
