import AnalyzerGlue.Code.Printer
import AnalyzerGlue.Evt.Load
import AnalyzerGlue.HookModule
import AnalyzerGlue.InitModule

/-!
# The glue compiler

A compiler collects the declarations of glue sources.  Compiling resolves them
against the types that a host knows, generates the init module and the hook
modules, and hands them to the host.  The host gets them only if no step has
found an error, but what resolving finds out stays with the compiler in any
case.
-/

namespace AnalyzerGlue

/-- The options of a compilation. -/
structure Options where
  /-- The version that conditions in glue sources refer to. -/
  hostVersion : Nat
  /-- The version of the grammar compiler that the output is for. -/
  grammarVersion : Nat
  /-- Whether hooks report the events that they raise. -/
  debug : Bool
  /-- The external name of the function that gives the plugin's version. -/
  versionSymbol : String
deriving DecidableEq, Repr

/-- The options when none are given. -/
def Options.usual : Options :=
  ⟨50200, InitModule.builtinScopeVersion, false, "evtglue_plugin_version"⟩

/-- A generated module in the language it is written in. -/
structure OutputUnit where
  language : Code.Language
  code : Code.Module

/-- The name of the file for a generated module. -/
def OutputUnit.fileName (unit : OutputUnit) : String :=
  unit.code.id.text ++ "." ++ unit.language.extension

/-- The toolchain that a compilation works for. -/
structure Host where
  table : TypeTable
  /-- Whether the host wants debugging output. -/
  debug : Bool
  /-- The modules that were handed over, the first one first. -/
  units : List OutputUnit
  /-- Whether the host lists its grammar modules and takes note of exports. -/
  cooperative : Bool

namespace Host

/-- A host that knows the types of a table. -/
def start (table : TypeTable) (debug cooperative : Bool) : Host :=
  ⟨table, debug, [], cooperative⟩

/-- The grammar modules that the host lists. -/
def modules (host : Host) : List (QualName × Path) :=
  if host.cooperative then host.table.modules else []

/-- Tells the host that a type is exported. -/
def noteExport (host : Host) (decl : ExportDecl) : Host :=
  if host.cooperative then { host with table := host.table.markExported decl.id } else host

/-- The first module with an id that was handed over. -/
def unit? (host : Host) (id : String) : Option OutputUnit :=
  host.units.find? fun unit => unit.code.id.text == id

end Host

/-- What a successful compilation yields. -/
structure Output where
  init : Code.Module
  hooks : List Code.Module

/-- The generated modules in the order in which they are handed over. -/
def Output.units (output : Output) : List OutputUnit :=
  ⟨.hilti, output.init⟩ :: output.hooks.map (OutputUnit.mk .spicy)

/-- A compiler: its options, the declarations loaded so far, and the texts of
the sources they come from. -/
structure Compiler where
  options : Options
  store : Store
  sources : List (Path × String)

namespace Compiler

/-- A compiler that has loaded nothing. -/
def start (options : Options) : Compiler :=
  ⟨options, .empty, []⟩

/-! ## Loading -/

/-- The text of a source that was loaded, also if it was in error. -/
def source? (compiler : Compiler) (path : Path) : Option String :=
  (findKey? (fun entry => entry.1.components) path.components compiler.sources).map Prod.snd

/-- Loads a source.  If it is in error, nothing of it is added. -/
def load (compiler : Compiler) (path : Path) (source : String) :
    Compiler × Except GlueError Unit :=
  let sources := upsert (fun entry => entry.1.components) (path, source) compiler.sources
  match Store.load path source.toList compiler.options.hostVersion with
  | .error error => ({ compiler with sources := sources }, .error (.source error))
  | .ok loaded =>
      ({ compiler with sources := sources, store := compiler.store.extend loaded }, .ok ())

/-- Loads a file, of which the text or the reason why there is none is given. -/
def loadFile (compiler : Compiler) (path : Path) (contents : Except String String) :
    Compiler × Except GlueError Unit :=
  match contents with
  | .ok source => compiler.load path source
  | .error reason => (compiler, .error (.unreadable path reason))

/-- Registers a grammar module. -/
def addModule (compiler : Compiler) (id : QualName) (file : Path) : Compiler :=
  { compiler with store := compiler.store.addModule id file }

/-- Registers a grammar module unless one with the same id is registered. -/
def adoptModule (store : Store) (entry : QualName × Path) : Store :=
  match store.module? entry.1 with
  | some _ => store
  | none => store.addModule entry.1 entry.2

/-! ## Compiling -/

/-- Generates the hook modules for some grammar modules and notes each of them
with its grammar module.  A grammar module without sources has none. -/
def generateHooks (debug : Bool) (store : Store) :
    List GrammarModule → List GrammarModule × List Code.Module × List GlueError
  | [] => ([], [], [])
  | first :: others =>
      let (grammars, hooks, errors) := generateHooks debug store others
      if first.sources.isEmpty then (first :: grammars, hooks, errors)
      else
        let (hook, found) := HookModule.generate debug store first
        ({ first with output := some hook } :: grammars, hook :: hooks, found ++ errors)

/-- Whether generated hooks report events. -/
def debugs (compiler : Compiler) (host : Host) : Bool :=
  compiler.options.debug || host.debug

/-- The scope that registrations pass on. -/
def scope (compiler : Compiler) : Expr :=
  InitModule.scope compiler.options.grammarVersion

/-- Compiles all that has been loaded. -/
def compile (compiler : Compiler) (host : Host) :
    Except (List GlueError) Output × Compiler × Host :=
  let host := compiler.store.exports.foldl Host.noteExport host
  let store := host.modules.foldl adoptModule compiler.store
  let analyzerErrors := store.checkAnalyzers host.table
  let (store, eventErrors) := store.resolve host.table
  let (projected, typeErrors) :=
    HostType.projectExports host.table host.table.exportedTypes store.exports
  let init := InitModule.generate compiler.options.versionSymbol
    compiler.options.grammarVersion store projected
  let (grammars, hooks, hookErrors) :=
    generateHooks (compiler.debugs host) store store.modules
  let compiler := { compiler with store := { store with modules := grammars } }
  let errors := analyzerErrors ++ eventErrors ++ typeErrors.map GlueError.project ++ hookErrors
  if errors.isEmpty then
    let output : Output := ⟨init, hooks⟩
    (.ok output, compiler, { host with units := host.units ++ output.units })
  else (.error errors, compiler, host)

/-- An error as it is shown to the user: with the lines around it, if the source
it is about was loaded. -/
def render (compiler : Compiler) (error : GlueError) : String :=
  match error.location with
  | none => error.display
  | some location =>
      match compiler.source? location.file with
      | some source => location.snippet source error.message
      | none => error.display

end Compiler

end AnalyzerGlue
