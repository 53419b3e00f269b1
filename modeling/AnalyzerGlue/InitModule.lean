import AnalyzerGlue.Code
import AnalyzerGlue.Declaration.Store
import AnalyzerGlue.HostType

/-!
# The init module

The init module registers with the host all analyzers, the events that hooks
raise, and the exported types.
-/

namespace AnalyzerGlue.InitModule

open HostRuntime

/-- The least version of the grammar compiler in which the scope of a unit is
built in. -/
def builtinScopeVersion : Nat := 10700

/-- The scope that registrations pass on. -/
def scope (grammarVersion : Nat) : Expr :=
  if builtinScopeVersion ≤ grammarVersion then .atom .scope none
  else .callOf (hilti "linker_scope") []

/-- A name that may be missing; the empty text stands for that. -/
def optionalName (name : Option QualName) : Expr :=
  .ofString ((name.map QualName.text).getD "")

/-- The statement that calls a function of the runtime. -/
def register (name : String) (arguments : List Expr) : Code.Stmt :=
  .expr (call name arguments)

/-- Registers a protocol analyzer. -/
def protocolStmt (scope : Expr) (analyzer : ProtocolAnalyzer) : Code.Stmt :=
  register "register_protocol_analyzer"
    [.ofString analyzer.name,
      .ofName ((hilti "Protocol").within analyzer.transport.name),
      .vector (analyzer.ports.map Expr.ofPort) none,
      optionalName analyzer.originator, optionalName analyzer.responder,
      optionalName analyzer.replaces, scope]

/-- Registers a file analyzer. -/
def fileStmt (scope : Expr) (analyzer : FileAnalyzer) : Code.Stmt :=
  register "register_file_analyzer"
    [.ofString analyzer.name, .vector (analyzer.mimeTypes.map Expr.ofString) none,
      optionalName analyzer.unit, optionalName analyzer.replaces, scope]

/-- Registers a packet analyzer. -/
def packetStmt (scope : Expr) (analyzer : PacketAnalyzer) : Code.Stmt :=
  register "register_packet_analyzer"
    [.ofString analyzer.name, optionalName analyzer.unit, optionalName analyzer.replaces,
      scope]

/-- Installs the handler of an event. -/
def eventStmt (event : Event) : Code.Stmt :=
  register "install_handler" [.ofString event.name.text]

/-- Registers a type. -/
def typeStmt (projected : HostType.Projected) : Code.Stmt :=
  register "register_type"
    [.ofString projected.id.qualifier.text, .ofString projected.id.base, projected.expr]

/-- The body of the function that runs first. -/
def body (symbol : String) (scope : Expr) (store : Store)
    (types : List HostType.Projected) : List Code.Stmt :=
  .callOf ⟨symbol⟩ [] ::
    (store.protocols.map (protocolStmt scope) ++ store.files.map (fileStmt scope) ++
      store.packets.map (packetStmt scope) ++ store.events.map eventStmt ++
      types.map typeStmt)

/-- The init module. -/
def generate (symbol : String) (grammarVersion : Nat) (store : Store)
    (types : List HostType.Projected) : Code.Module where
  id := initModule
  imports := [.plain moduleName .hilti, .plain baseModule .hilti]
  decls :=
    [.function
      { id := symbol
        result := .void
        params := []
        body := none
        linkage := .visible
        attributes := [⟨"&cxxname", some (.ofString symbol)⟩, ⟨"&have_prototype", none⟩] },
     .function
      { id := initFunction
        result := .void
        params := []
        body := some (body symbol (scope grammarVersion) store types)
        linkage := .preinit
        attributes := [] }]

end AnalyzerGlue.InitModule
