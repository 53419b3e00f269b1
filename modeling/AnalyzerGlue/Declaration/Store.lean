import AnalyzerGlue.Code
import AnalyzerGlue.Declaration.Analyzer
import AnalyzerGlue.Declaration.Event
import AnalyzerGlue.TypeTable

/-!
# Stores of declarations

A store collects what one or more glue sources declare, in the order in which
they are loaded, and the grammar modules that hooks can attach to.
-/

namespace AnalyzerGlue

/-- A grammar module. -/
structure GrammarModule where
  id : QualName
  file : Path
  /-- The glue sources whose events attach to the module, in ascending order. -/
  sources : List Path
  /-- The hook module that was generated for it last. -/
  output : Option Code.Module

namespace GrammarModule

/-- A module to which nothing attaches. -/
def declare (id : QualName) (file : Path) : GrammarModule :=
  ⟨id, file, [], none⟩

/-- Records a glue source. -/
def addSource (grammar : GrammarModule) (source : Path) : GrammarModule :=
  { grammar with sources := Path.insert source grammar.sources }

/-- The directories of the glue sources, in ascending order. -/
def searchDirs (grammar : GrammarModule) : List Path :=
  grammar.sources.foldl (fun dirs source => Path.insertReplacing source.parent dirs) []

end GrammarModule

/-- Declarations in the order in which they were loaded. -/
structure Store where
  protocols : List ProtocolAnalyzer
  files : List FileAnalyzer
  packets : List PacketAnalyzer
  events : List Event
  imports : List ImportDecl
  exports : List ExportDecl
  modules : List GrammarModule

namespace Store

/-- The store without declarations. -/
def empty : Store :=
  ⟨[], [], [], [], [], [], []⟩

/-- Whether nothing is declared; grammar modules do not count. -/
def isEmpty (store : Store) : Bool :=
  store.protocols.isEmpty && store.files.isEmpty && store.packets.isEmpty &&
    store.events.isEmpty && store.imports.isEmpty && store.exports.isEmpty

/-- The grammar module with an id. -/
def module? (store : Store) (id : QualName) : Option GrammarModule :=
  findKey? GrammarModule.id id store.modules

/-- Registers a grammar module.  One with the same id is replaced. -/
def addModule (store : Store) (id : QualName) (file : Path) : Store :=
  { store with
    modules := upsert GrammarModule.id (.declare id file) store.modules }

/-- Adds a grammar module unless one with the same id is registered. -/
def keepModule (modules : List GrammarModule) (added : GrammarModule) :
    List GrammarModule :=
  if modules.any fun grammar => grammar.id == added.id then modules else modules ++ [added]

/-- Changes the grammar module with an id. -/
def updateModule (store : Store) (id : QualName)
    (change : GrammarModule → GrammarModule) : Store :=
  { store with
    modules := store.modules.map fun grammar =>
      if grammar.id = id then change grammar else grammar }

/-- Adds the declarations of another store behind those of this one. -/
def extend (store other : Store) : Store where
  protocols := store.protocols ++ other.protocols
  files := store.files ++ other.files
  packets := store.packets ++ other.packets
  events := store.events ++ other.events
  imports := store.imports ++ other.imports
  exports := store.exports ++ other.exports
  modules := other.modules.foldl keepModule store.modules

end Store

end AnalyzerGlue
