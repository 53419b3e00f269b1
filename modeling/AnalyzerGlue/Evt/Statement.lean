import AnalyzerGlue.Declaration.Analyzer
import AnalyzerGlue.Declaration.Event
import AnalyzerGlue.Evt.Cursor

/-!
# Statements

Glue sources have six kinds of statements.  Analyzers are declared with clauses
that may come in any order, with commas between them; a later clause of a kind
takes the place of an earlier one, except that ports and MIME types add up.
-/

namespace AnalyzerGlue.Evt

/-- A statement. -/
inductive Statement where
  | protocol (analyzer : ProtocolAnalyzer)
  | file (analyzer : FileAnalyzer)
  | packet (analyzer : PacketAnalyzer)
  | event (event : Event)
  | imported (decl : ImportDecl)
  | exported (decl : ExportDecl)

namespace Statement

open Reader

/-- The least host version whose packet analyzers can replace others. -/
def packetReplacementVersion : Nat := 50200

/-- Takes clauses with commas between them up to a semicolon, which stays. -/
def clauses {α : Type} (clause : α → Reader α) (start : α) : Reader α :=
  loop (fun analyzer => do
    let changed ← clause analyzer
    if ← sees ";" then
      return .done changed
    else
      expect ","
      return .again changed) start

/-! ## Protocol analyzers -/

/-- Takes the rest of a `parse` clause of a protocol analyzer, for both
directions or for one of them. -/
def directions (analyzer : ProtocolAnalyzer) : Reader ProtocolAnalyzer := do
  if ← accept "originator" then
    expect "with"
    return { analyzer with originator := some (← ident) }
  else if ← accept "responder" then
    expect "with"
    return { analyzer with responder := some (← ident) }
  else if ← sees "with" then
    expect "with"
    let unit ← ident
    return { analyzer with originator := some unit, responder := some unit }
  else
    throw .invalidParseClause

/-- Takes ports in braces with commas between them. -/
def portList : Reader (List Port) := do
  expect "\x7b"
  loop (fun taken => do
    let more ← ports
    if ← accept "\x7d" then
      return .done (taken ++ more)
    else
      expect ","
      return .again (taken ++ more)) []

/-- Takes a clause of a protocol analyzer. -/
def protocolClause (analyzer : ProtocolAnalyzer) : Reader ProtocolAnalyzer := do
  if ← accept "parse" then
    directions analyzer
  else if ← accept "ports" then
    return { analyzer with ports := analyzer.ports ++ (← portList) }
  else if ← accept "port" then
    return { analyzer with ports := analyzer.ports ++ (← ports) }
  else if ← accept "replaces" then
    return { analyzer with replaces := some (← ident) }
  else
    throw .unexpectedToken

/-- Takes a transport protocol in any mix of cases. -/
def transport : Reader Transport := do
  let keyword := (← ident).text.map Char.toLower
  match Transport.ofKeyword? keyword with
  | some transport => return transport
  | none => throw (.unknownTransport keyword)

/-- Takes a protocol analyzer, which has to parse at least one direction. -/
def protocolAnalyzer (location : Location) : Reader ProtocolAnalyzer := do
  expect "protocol"
  expect "analyzer"
  let name := (← ident).text
  expect "over"
  let carrier ← transport
  expect ":"
  let analyzer ← clauses protocolClause ⟨name, carrier, none, none, [], none, location⟩
  if analyzer.originator.isNone && analyzer.responder.isNone then
    throw (.missingParseClause name)
  else
    return analyzer

/-! ## File and packet analyzers -/

/-- Takes a clause of a file analyzer. -/
def fileClause (analyzer : FileAnalyzer) : Reader FileAnalyzer := do
  if ← accept "parse" then
    expect "with"
    return { analyzer with unit := some (← ident) }
  else if ← accept "mime-type" then
    return { analyzer with mimeTypes := analyzer.mimeTypes ++ [← mimeType] }
  else if ← accept "replaces" then
    return { analyzer with replaces := some (← ident) }
  else
    throw .unexpectedToken

/-- Takes a file analyzer. -/
def fileAnalyzer (location : Location) : Reader FileAnalyzer := do
  expect "file"
  expect "analyzer"
  let name := (← ident).text
  expect ":"
  clauses fileClause ⟨name, none, [], none, location⟩

/-- Takes a clause of a packet analyzer. -/
def packetClause (version : Nat) (analyzer : PacketAnalyzer) : Reader PacketAnalyzer := do
  if ← accept "parse" then
    expect "with"
    return { analyzer with unit := some (← ident) }
  else if ← sees "replaces" then
    if version < packetReplacementVersion then
      throw .packetReplacement
    else
      expect "replaces"
      return { analyzer with replaces := some (← ident) }
  else
    throw .unexpectedToken

/-- Takes a packet analyzer. -/
def packetAnalyzer (location : Location) (version : Nat) : Reader PacketAnalyzer := do
  expect "packet"
  expect "analyzer"
  let name := (← ident).text
  expect ":"
  clauses (packetClause version) ⟨name, none, none, location⟩

/-! ## Events -/

/-- Takes a condition in parentheses, if there is one. -/
def condition : Reader (Option String) := do
  if ← accept "if" then
    expect "("
    let text ← expr
    expect ")"
    return some text
  else
    return none

/-- Takes arguments with commas between them up to a closing parenthesis. -/
def arguments : Reader (List String) := do
  if ← accept ")" then
    return []
  else
    let first ← expr
    loop (fun taken => do
      if ← accept ")" then
        return .done taken
      else
        expect ","
        return .again (taken ++ [← expr])) [first]

/-- Takes a priority, if there is one. -/
def priority : Reader Int := do
  if ← accept "&priority" then
    expect "="
    integer
  else
    return Event.defaultPriority

/-- Takes an event, which has to end with the text. -/
def eventDecl (location : Location) : Reader Event := do
  expect "on"
  let path ← ident
  let condition ← condition
  expect "->"
  expect "event"
  let name ← ident
  expect "("
  let exprs ← arguments
  let priority ← priority
  expect ";"
  spaces
  if (← get).rest.isEmpty then
    return { Event.declare path name location with
      condition := condition, exprs := exprs, priority := priority }
  else
    throw .trailingCharacters

/-! ## Imports and exports -/

/-- Takes an import.  What follows it in the text is not looked at. -/
def importDecl : Reader ImportDecl := do
  expect "import"
  let name ← ident
  if ← accept "from" then
    return ⟨name, some (← path)⟩
  else
    return ⟨name, none⟩

/-- Takes an export with its semicolon. -/
def exportDecl (location : Location) : Reader ExportDecl := do
  expect "export"
  let name ← ident
  expect ";"
  return ⟨name, location⟩

/-! ## Statements -/

/-- Takes a statement; its first word tells which kind it is. -/
def reader (location : Location) (version : Nat) : Reader Statement := do
  if ← sees "protocol" then
    return .protocol (← protocolAnalyzer location)
  else if ← sees "file" then
    return .file (← fileAnalyzer location)
  else if ← sees "packet" then
    return .packet (← packetAnalyzer location version)
  else if ← sees "on" then
    return .event (← eventDecl location)
  else if ← sees "import" then
    return .imported (← importDecl)
  else if ← sees "export" then
    return .exported (← exportDecl location)
  else
    throw .unknownStatement

/-- What a reader takes from the start of a text. -/
def run {α : Type} (reader : Reader α) (text : List Char) : Except EvtError α :=
  match reader (Cursor.start text) with
  | .ok value _ => .ok value
  | .error error _ => .error error

/-- The statement of a chunk. -/
def parse (text : List Char) (location : Location) (version : Nat) :
    Except EvtError Statement :=
  run (reader location version) text

end Statement

end AnalyzerGlue.Evt
