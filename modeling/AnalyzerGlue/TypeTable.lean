import AnalyzerGlue.GrammarType.Index
import AnalyzerGlue.Json.Reader
import AnalyzerGlue.Keyed
import AnalyzerGlue.Location

/-!
# Tables of declared types

A type table knows grammar modules with their files, the types that they
declare, and which of these are exported.  Modules and types keep the order in
which they were declared first; declaring a name again replaces what it stands
for.
-/

namespace AnalyzerGlue

/-- A declared type and where it is declared. -/
structure TypeInfo where
  id : QualName
  type : GrammarType
  moduleId : QualName
  modulePath : Path
  location : Option Location
deriving Inhabited

/-- The reasons why a name does not stand for a type of the wanted sort. -/
inductive LookupError where
  | unknown (id : QualName)
  | notAUnit (id : QualName)
deriving DecidableEq, Repr

/-- The message of an error. -/
def LookupError.message : LookupError → String
  | .unknown id => "unknown type '" ++ id.text ++ "'"
  | .notAUnit id => "'" ++ id.text ++ "' is not a unit type"

/-- Grammar modules, their types, and the names of the exported types. -/
structure TypeTable where
  modules : List (QualName × Path)
  types : List TypeInfo
  exported : List QualName
deriving Inhabited

namespace TypeTable

/-- The table that knows nothing. -/
def empty : TypeTable :=
  ⟨[], [], []⟩

/-- Declares a module. -/
def addModule (table : TypeTable) (id : QualName) (file : Path) : TypeTable :=
  { table with modules := upsert Prod.fst (id, file) table.modules }

/-- The file of a module; the empty path for one that is not declared. -/
def fileOf (table : TypeTable) (id : QualName) : Path :=
  ((findKey? Prod.fst id table.modules).map Prod.snd).getD ⟨""⟩

/-- Declares a type of a module. -/
def addType (table : TypeTable) (moduleId id : QualName) (type : GrammarType)
    (location : Option Location) : TypeTable :=
  let info : TypeInfo := ⟨id, type, moduleId, table.fileOf moduleId, location⟩
  { table with types := upsert TypeInfo.id info table.types }

/-- The declaration of a type. -/
def find? (table : TypeTable) (id : QualName) : Option TypeInfo :=
  findKey? TypeInfo.id id table.types

/-- Exports a type, if it is declared. -/
def markExported (table : TypeTable) (id : QualName) : TypeTable :=
  if (table.find? id).isSome ∧ id ∉ table.exported then
    { table with exported := table.exported ++ [id] }
  else table

/-- The exported types in the order of their declaration. -/
def exportedTypes (table : TypeTable) : List TypeInfo :=
  table.types.filter fun info => info.id ∈ table.exported

/-- The declaration of a type, or why there is none. -/
def lookup (table : TypeTable) (id : QualName) : Except LookupError TypeInfo :=
  match table.find? id with
  | some info => .ok info
  | none => .error (.unknown id)

/-- The declaration of a unit type together with its items, or why there is
none. -/
def lookupUnit (table : TypeTable) (id : QualName) :
    Except LookupError (TypeInfo × List UnitItem) :=
  match table.lookup id with
  | .error error => .error error
  | .ok info =>
      match info.type.unit? with
      | some items => .ok (info, items)
      | none => .error (.notAUnit id)

/-- What is looked up has the name it was looked up by. -/
theorem id_eq_of_find?_eq_some {table : TypeTable} {id : QualName} {info : TypeInfo}
    (found : table.find? id = some info) : info.id = id :=
  key_eq_of_findKey?_eq_some found

/-- What is looked up is declared. -/
theorem mem_types_of_find?_eq_some {table : TypeTable} {id : QualName} {info : TypeInfo}
    (found : table.find? id = some info) : info ∈ table.types :=
  mem_of_findKey?_eq_some found

/-! ## Type indexes -/

/-- An entry of a type index. -/
structure Entry where
  id : QualName
  type : GrammarType
  exported : Bool
  line : Option Nat

/-- The number of arrays and objects around a type: the index, its modules, a
module, its types and an entry. -/
def Entry.levels : Nat := 5

/-- The entry of a form. -/
def Entry.ofJson? (json : Json) : Option Entry := do
  let members ← json.members? ["id", "type", "exported", "line"]
  let id ← Json.required members "id" Json.string?
  let type ← Json.required members "type" (GrammarType.load? levels)
  let exported ← Json.defaulted members "exported" false Json.bool?
  let line ← Json.optional members "line" Json.natural?
  return ⟨⟨id⟩, type, exported, line⟩

/-- A module of a type index. -/
structure ModuleEntry where
  id : QualName
  file : Path
  types : List Entry

/-- The module of a form. -/
def ModuleEntry.ofJson? (json : Json) : Option ModuleEntry := do
  let members ← json.members? ["id", "file", "types"]
  let id ← Json.required members "id" Json.string?
  let file ← Json.required members "file" Json.string?
  let types ← Json.defaulted members "types" [] (Json.array? Entry.ofJson?)
  return ⟨⟨id⟩, ⟨file⟩, types⟩

/-- Declares the type of an entry. -/
def addEntry (moduleId : QualName) (file : Path) (table : TypeTable) (entry : Entry) :
    TypeTable :=
  let location := entry.line.map fun line => (⟨file, line⟩ : Location)
  let declared := table.addType moduleId entry.id entry.type location
  if entry.exported then declared.markExported entry.id else declared

/-- Declares a module and its types. -/
def addModuleEntry (table : TypeTable) (entry : ModuleEntry) : TypeTable :=
  entry.types.foldl (addEntry entry.id entry.file) (table.addModule entry.id entry.file)

/-- The table of a form. -/
def ofJson? (json : Json) : Option TypeTable := do
  let members ← json.members? ["modules"]
  let modules ← Json.defaulted members "modules" [] (Json.array? ModuleEntry.ofJson?)
  return modules.foldl addModuleEntry empty

/-- The table of a type index. -/
def parse? (text : String) : Option TypeTable :=
  (Json.parse? text).bind ofJson?

end TypeTable

/-- The type that a text in the form of type indexes stands for. -/
def GrammarType.parse? (text : String) : Option GrammarType :=
  (Json.parse? text).bind (GrammarType.load? 0)

end AnalyzerGlue
