import AnalyzerGlue.Declaration.Analyzer
import AnalyzerGlue.HostRuntime
import AnalyzerGlue.TypeTable

/-!
# Host types for grammar types

A grammar type is projected to an expression that builds the host's counterpart
of it.  Structs, tuples and units become records, and a reference to a declared
type becomes the host type of that declaration.

A declaration that refers back to itself has no host type.  The names whose
projection is going on are passed along, and coming to one of them again is an
error.  Each reference that is followed adds a declared name to them, which is
why projecting ends.
-/

namespace AnalyzerGlue

/-- The reasons why there is no host type. -/
inductive ProjectError where
  | unsupported (typename : String)
  | unnamedElement
  | selfRecursive
  | anonymous (typename : String)
  | missingQualifier (id : QualName)
  | lookup (error : LookupError)
  | cannotExport (id : QualName) (reason : ProjectError)
  | unknownExport (id : QualName)
deriving DecidableEq, Repr

/-- The message of an error. -/
def ProjectError.message : ProjectError → String
  | .unsupported typename => "type '" ++ typename ++ "' not supported"
  | .unnamedElement => "only tuples with named elements can be converted"
  | .selfRecursive => "type is self-recursive"
  | .anonymous typename => "cannot convert anonymous " ++ typename ++ " type"
  | .missingQualifier id => "exported type must provide namespace: " ++ id.text
  | .lookup error => error.message
  | .cannotExport id reason =>
      "cannot export type '" ++ id.text ++ "': " ++ reason.message
  | .unknownExport id => "unknown type exported: " ++ id.text

namespace HostType

open HostRuntime

/-! ## Expressions that build host types -/

/-- The host's basic type for a grammar type without parts. -/
def tag? : BaseType → Option TypeTag
  | .address => some .addr
  | .bool => some .bool
  | .bytes | .string => some .string
  | .interval => some .interval
  | .port => some .port
  | .real => some .double
  | .signedInteger => some .int
  | .unsignedInteger => some .count
  | .time => some .time
  | .void | .regexp | .stream | .sink => none

/-- A basic type. -/
def basic (tag : TypeTag) : Expr :=
  call "create_base_type" [.ofName tag.name]

/-- A type with a name. -/
def withName (function : String) (id : QualName) (parts : List Expr) : Expr :=
  call function
    [.ofString id.qualifier.text, .ofString id.base, .vector parts none]

/-- The value that stands for `-1`, which host enumerations cannot hold. -/
def undefinedLabel : Int := 2147483647

/-- A label of an enumeration. -/
def label (label : EnumLabel) : Expr :=
  let value := if label.value = -1 then undefinedLabel else label.value.toInt
  .tuple [.ofString label.id, .ofInt value] none

/-- A field of a record. -/
def recordField (name : String) (type : Expr) (optional : Bool) : Expr :=
  .tuple [.ofString name, type, .ofBool optional] none

/-- The name of the type, or why there has to be one. -/
def nameOr (typename : String) (id : Option QualName) : Except ProjectError QualName :=
  match id with
  | some id => .ok id
  | none => .error (.anonymous typename)

/-! ## Projection -/

/-- The number of declared types whose names are not among the given ones. -/
def pending (table : TypeTable) (inProgress : List QualName) : Nat :=
  (table.types.filter fun info => info.id ∉ inProgress).length

/-- Adding the name of a declared type leaves fewer of them. -/
theorem pending_cons_lt {table : TypeTable} {inProgress : List QualName} {info : TypeInfo}
    (declared : info ∈ table.types) (fresh : info.id ∉ inProgress) :
    pending table (info.id :: inProgress) < pending table inProgress := by
  have removed :
      (table.types.filter fun other => other.id ∉ info.id :: inProgress) =
        (table.types.filter fun other => other.id ∉ inProgress).filter fun other =>
          other.id ≠ info.id := by
    rw [List.filter_filter]
    congr 1
    funext other
    simp
  unfold pending
  rw [removed]
  apply List.length_filter_lt_length_iff_exists.mpr
  exact ⟨info, by simp [declared, fresh], by simp⟩

mutual

/-- The host type of a grammar type, which has a name if it is declared. -/
def project (table : TypeTable) (inProgress : List QualName) (id : Option QualName)
    (type : GrammarType) : Except ProjectError Expr :=
  match type with
  | .base base =>
      match tag? base with
      | some tag => .ok (basic tag)
      | none => .error (.unsupported base.typename)
  | .optional inner => project table inProgress none inner
  | .set element => do
      let element ← project table inProgress none element
      return call "create_table_type" [element, .null]
  | .map key value => do
      let key ← project table inProgress none key
      let value ← project table inProgress none value
      return call "create_table_type" [key, value]
  | .vector element => do
      let element ← project table inProgress none element
      return call "create_vector_type" [element]
  | .enum labels => do
      let id ← nameOr "enum" id
      return withName "create_enum_type" id (labels.map label)
  | .struct fields => do
      let id ← nameOr "struct" id
      return withName "create_record_type" id (← projectFields table inProgress fields)
  | .tuple elements => do
      let id ← nameOr "tuple" id
      return withName "create_record_type" id (← projectElements table inProgress elements)
  | .unit items => do
      let id ← nameOr "unit" id
      return withName "create_record_type" id (← projectItems table inProgress items)
  | .named reference =>
      match found : table.find? reference with
      | none => .error (.lookup (.unknown reference))
      | some info =>
          if fresh : info.id ∈ inProgress then .error .selfRecursive
          else
            have := pending_cons_lt (TypeTable.mem_types_of_find?_eq_some found) fresh
            project table (info.id :: inProgress) (some info.id) info.type
termination_by (pending table inProgress, sizeOf type)

/-- The record fields for the fields of a struct. -/
def projectFields (table : TypeTable) (inProgress : List QualName)
    (fields : List StructField) : Except ProjectError (List Expr) :=
  match fields with
  | [] => .ok []
  | ⟨name, type, optional⟩ :: others => do
      let type ← project table inProgress none type
      return recordField name type optional :: (← projectFields table inProgress others)
termination_by (pending table inProgress, sizeOf fields)

/-- The record fields for the elements of a tuple, which need names. -/
def projectElements (table : TypeTable) (inProgress : List QualName)
    (elements : List TupleElement) : Except ProjectError (List Expr) :=
  match elements with
  | [] => .ok []
  | ⟨none, _⟩ :: _ => .error .unnamedElement
  | ⟨some name, type⟩ :: others => do
      let type ← project table inProgress none type
      return recordField name type false :: (← projectElements table inProgress others)
termination_by (pending table inProgress, sizeOf elements)

/-- The record fields for the items of a unit.  Only fields that have a name and
keep a value are taken, besides the variables. -/
def projectItems (table : TypeTable) (inProgress : List QualName)
    (items : List UnitItem) : Except ProjectError (List Expr) :=
  match items with
  | [] => .ok []
  | .field (some name) type false false :: others =>
      if type.isVoid then projectItems table inProgress others
      else do
        let type ← project table inProgress none type
        return recordField name type true :: (← projectItems table inProgress others)
  | .field _ _ _ _ :: others => projectItems table inProgress others
  | .var name type optional :: others => do
      let type ← project table inProgress none type
      return recordField name type optional :: (← projectItems table inProgress others)
  | .switch _ :: others => projectItems table inProgress others
termination_by (pending table inProgress, sizeOf items)

end

/-- The host type of a grammar type that may be declared under a name. -/
def ofType (table : TypeTable) (type : GrammarType) : Option QualName →
    Except ProjectError Expr
  | none => project table [] none type
  | some id => project table [id] (some id) type

/-- The host type of a declaration, whose name needs a qualifier. -/
def ofDeclaration (table : TypeTable) (type : GrammarType) (id : QualName) :
    Except ProjectError Expr :=
  if id.qualifier.isEmpty then .error (.missingQualifier id)
  else ofType table type (some id)

/-! ## Exported types -/

/-- A name and the expression that builds the type it stands for. -/
structure Projected where
  id : QualName
  expr : Expr
deriving DecidableEq

/-- The host types of those exported types that have one, and an error for each
of the others. -/
def projectAll (table : TypeTable) :
    List TypeInfo → List Projected × List (Located ProjectError)
  | [] => ([], [])
  | info :: others =>
      let (projected, errors) := projectAll table others
      match ofDeclaration table info.type info.id with
      | .ok expr => (⟨info.id, expr⟩ :: projected, errors)
      | .error reason =>
          (projected, ⟨.cannotExport info.id reason, info.location⟩ :: errors)

/-- An error for each export statement that does not name an exported type. -/
def strayExports (exported : List TypeInfo) (exports : List ExportDecl) :
    List (Located ProjectError) :=
  (exports.filter fun decl => !exported.any fun info => info.id == decl.id).map fun decl =>
    let cause :=
      if decl.id.qualifier.isEmpty then .missingQualifier decl.id else .unknownExport decl.id
    .reportedAt cause decl.location

/-- The host types of the exported types, and the errors: first those about the
types, then those about the statements. -/
def projectExports (table : TypeTable) (exported : List TypeInfo)
    (exports : List ExportDecl) : List Projected × List (Located ProjectError) :=
  let (projected, errors) := projectAll table exported
  (projected, errors ++ strayExports exported exports)

end HostType

end AnalyzerGlue
