import AnalyzerGlue.QualName

/-!
# Types of the grammar language

The types that grammar modules declare, as far as the glue needs them.  A type
refers to another declared type by its name, so that also recursive types are
finite values.
-/

namespace AnalyzerGlue

/-- Types without parts. -/
inductive BaseType where
  | address | bool | bytes | string | interval | port | real
  | signedInteger | unsignedInteger | time | void | regexp | stream | sink
deriving DecidableEq, Repr

/-- A label of an enumeration and its value. -/
structure EnumLabel where
  id : String
  value : Int64
deriving DecidableEq, Repr

mutual

/-- Types of the grammar language. -/
inductive GrammarType where
  | base (type : BaseType)
  | enum (labels : List EnumLabel)
  | optional (inner : GrammarType)
  | set (element : GrammarType)
  | map (key value : GrammarType)
  | vector (element : GrammarType)
  | struct (fields : List StructField)
  | tuple (elements : List TupleElement)
  | unit (items : List UnitItem)
  /-- A declared type, by its name. -/
  | named (id : QualName)

/-- A field of a struct. -/
structure StructField where
  id : String
  type : GrammarType
  optional : Bool

/-- An element of a tuple, which may have a name. -/
structure TupleElement where
  id : Option String
  type : GrammarType

/-- An item of a unit. -/
inductive UnitItem where
  /-- A field; a `skipped` one is parsed without keeping a value. -/
  | field (id : Option String) (type : GrammarType) (transient skipped : Bool)
  /-- A variable. -/
  | var (id : String) (type : GrammarType) (optional : Bool)
  /-- A choice between items. -/
  | switch (cases : List UnitItem)

end

instance : Inhabited GrammarType :=
  ⟨.base .void⟩

/-- The keyword of a type without parts. -/
def BaseType.typename : BaseType → String
  | .address => "addr"
  | .bool => "bool"
  | .bytes => "bytes"
  | .string => "string"
  | .interval => "interval"
  | .port => "port"
  | .real => "real"
  | .signedInteger => "int"
  | .unsignedInteger => "uint"
  | .time => "time"
  | .void => "void"
  | .regexp => "regexp"
  | .stream => "stream"
  | .sink => "sink"

namespace GrammarType

/-- The keyword of the outermost type. -/
def typename : GrammarType → String
  | .base type => type.typename
  | .enum _ => "enum"
  | .optional _ => "optional"
  | .set _ => "set"
  | .map _ _ => "map"
  | .vector _ => "vector"
  | .struct _ => "struct"
  | .tuple _ => "tuple"
  | .unit _ => "unit"
  | .named _ => "named"

/-- The items of a unit type. -/
def unit? : GrammarType → Option (List UnitItem)
  | .unit items => some items
  | _ => none

/-- Whether the type is `void`. -/
def isVoid : GrammarType → Bool
  | .base .void => true
  | _ => false

end GrammarType

end AnalyzerGlue
