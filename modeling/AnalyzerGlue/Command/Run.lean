import AnalyzerGlue.Command.Arguments
import AnalyzerGlue.Command.Files

/-!
# Running a command line

A run reads the type index and the sources, compiles them and hands out the
generated modules.  Everything is read before anything is written, and nothing
is written or printed unless the compilation succeeds.
-/

namespace AnalyzerGlue.Command

/-- The reasons why a run fails. -/
inductive Failure where
  | unreadableTypes (path : Path) (fault : FileFault)
  | invalidTypes (path : Path)
  /-- Some source could not be loaded. -/
  | sources
  | compilation (errors : Nat)
  | unwritable (path : Path) (fault : FileFault)
deriving DecidableEq, Repr

/-- The message of a failure, if there is something to add to what has been
shown already. -/
def Failure.message? : Failure → Option String
  | .unreadableTypes path fault =>
      some ("cannot open " ++ path.text ++ ": " ++ fault.message)
  | .invalidTypes path => some ("invalid type index " ++ path.text)
  | .sources => none
  | .compilation errors => some (toString errors ++ " error(s), no output generated")
  | .unwritable path fault =>
      some ("failed to write " ++ path.text ++ ": " ++ fault.message)

/-- What a run shows to the user. -/
structure Outcome where
  /-- The generated modules, unless they are written to files. -/
  output : String
  /-- The errors of sources and compilation, each as a text of its own. -/
  diagnostics : List String
  failure : Option Failure
deriving DecidableEq, Repr

namespace Outcome

/-- A run that ends early. -/
def failed (diagnostics : List String) (failure : Failure) : Outcome :=
  ⟨"", diagnostics, some failure⟩

/-- The text on the error channel: the diagnostics and the failure's message,
each with a line break. -/
def errorText (outcome : Outcome) : String :=
  let final :=
    match outcome.failure.bind Failure.message? with
    | some message => ["[ERROR] " ++ message]
    | none => []
  String.join ((outcome.diagnostics ++ final).map (· ++ "\n"))

/-- The exit code: one after a failure. -/
def exitCode (outcome : Outcome) : Nat :=
  if outcome.failure.isSome then 1 else 0

end Outcome

/-! ## Steps of a run -/

/-- Files with their contents, or why they have none. -/
abbrev Contents := List (Path × Except FileFault String)

/-- Loads sources and collects the texts of the errors. -/
def loadAll : Compiler → Contents → Compiler × List String
  | compiler, [] => (compiler, [])
  | compiler, (path, contents) :: rest =>
      let (compiler, result) := compiler.loadFile path (contents.mapError FileFault.message)
      let shown :=
        match result with
        | .ok _ => []
        | .error error => [compiler.render error]
      let (compiler, later) := loadAll compiler rest
      (compiler, shown ++ later)

/-- The types in the contents of an index. -/
def tableOf (path : Path) (contents : Except FileFault String) :
    Except Failure TypeTable :=
  match contents with
  | .error fault => .error (.unreadableTypes path fault)
  | .ok text =>
      match TypeTable.parse? text with
      | none => .error (.invalidTypes path)
      | some table => .ok table

/-- Loads sources and compiles them for a host with the given types.  Yields
the diagnostics, and the generated modules if there are none. -/
def build (options : Options) (table : TypeTable) (sources : Contents) :
    List String × Except Failure (List OutputUnit) :=
  let (compiler, shown) := loadAll (.start options) sources
  if shown.isEmpty then
    let (result, compiler, _) := compiler.compile (.start table options.debug true)
    match result with
    | .ok output => ([], .ok output.units)
    | .error errors => (errors.map compiler.render, .error (.compilation errors.length))
  else (shown, .error .sources)

/-- The text of generated modules when they are printed. -/
def printed (units : List OutputUnit) : String :=
  String.join (units.map fun unit => unit.code.text ++ "\n")

section Effects

variable {m : Type → Type} [Monad m] (files : Files m)

/-- Reads files, each of which goes with its contents. -/
def readAll : List Path → m Contents
  | [] => pure []
  | path :: rest => do
      let contents ← files.read path
      return (path, contents) :: (← readAll rest)

/-- Writes modules to files in a directory, up to the first one that cannot be
written. -/
def writeAll (directory : Path) : List OutputUnit → m (Option Failure)
  | [] => pure none
  | unit :: rest => do
      let path := directory.below ⟨unit.fileName⟩
      match ← files.write path unit.code.text with
      | .error fault => return some (.unwritable path fault)
      | .ok _ => writeAll directory rest

/-- Reads the type index of a request; without one no types are known. -/
def readTable : Option Path → m (Except Failure TypeTable)
  | none => pure (.ok .empty)
  | some path => do return tableOf path (← files.read path)

/-- Runs a request. -/
def run (request : Request) : m Outcome := do
  match ← readTable files request.types with
  | .error failure => return .failed [] failure
  | .ok table =>
      match build request.options table (← readAll files request.files) with
      | (diagnostics, .error failure) => return .failed diagnostics failure
      | (diagnostics, .ok units) =>
          match request.outDir with
          | none => return ⟨printed units, diagnostics, none⟩
          | some directory =>
              return ⟨"", diagnostics, ← writeAll files directory units⟩

end Effects

end AnalyzerGlue.Command
