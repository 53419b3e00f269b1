import AnalyzerGlue.Location
import AnalyzerGlue.Port
import AnalyzerGlue.QualName

/-!
# Declared analyzers, imports and exports

What the statements of a glue source declare, events apart.
-/

namespace AnalyzerGlue

/-- An analyzer for a protocol, with the units that parse its two directions. -/
structure ProtocolAnalyzer where
  name : String
  transport : Transport
  originator : Option QualName
  responder : Option QualName
  ports : List Port
  replaces : Option QualName
  location : Location
deriving DecidableEq, Repr

/-- An analyzer for files of some MIME types. -/
structure FileAnalyzer where
  name : String
  unit : Option QualName
  mimeTypes : List String
  replaces : Option QualName
  location : Location
deriving DecidableEq, Repr

/-- An analyzer for packets. -/
structure PacketAnalyzer where
  name : String
  unit : Option QualName
  replaces : Option QualName
  location : Location
deriving DecidableEq, Repr

/-- A grammar module that generated hooks import, and the scope it is in. -/
structure ImportDecl where
  name : QualName
  scope : Option String
deriving DecidableEq, Repr

/-- A type that is made known to the host. -/
structure ExportDecl where
  id : QualName
  location : Location
deriving DecidableEq, Repr

end AnalyzerGlue
