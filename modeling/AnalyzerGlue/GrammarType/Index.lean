import AnalyzerGlue.GrammarType
import AnalyzerGlue.Json

/-!
# The form of types in type indexes

A type is an object whose member `kind` says which type it is; the items of a
unit are objects with a member `item`.  `toJson` writes every member, and
`ofJson?` also takes objects without those that have a default.

Inside of a type these tags may also be given as numbers, which count the kinds
of types and of items from zero.  The tag of the outermost type is always a
name.

While what an index does not use is skipped, all of a type is read: `load?`
takes only forms in which nothing is unreadable and that are not nested too
deep.
-/

namespace AnalyzerGlue

/-! ## Kinds -/

/-- The types without parts, each with its kind. -/
def BaseType.kinds : List (String × BaseType) :=
  [("address", .address), ("bool", .bool), ("bytes", .bytes), ("string", .string),
    ("interval", .interval), ("port", .port), ("real", .real),
    ("signed_integer", .signedInteger), ("unsigned_integer", .unsignedInteger),
    ("time", .time), ("void", .void), ("regexp", .regexp), ("stream", .stream),
    ("sink", .sink)]

/-- The kind of a type without parts. -/
def BaseType.kind : BaseType → String
  | .address => "address"
  | .bool => "bool"
  | .bytes => "bytes"
  | .string => "string"
  | .interval => "interval"
  | .port => "port"
  | .real => "real"
  | .signedInteger => "signed_integer"
  | .unsignedInteger => "unsigned_integer"
  | .time => "time"
  | .void => "void"
  | .regexp => "regexp"
  | .stream => "stream"
  | .sink => "sink"

/-- The type without parts of a kind. -/
def BaseType.ofKind? (kind : String) : Option BaseType :=
  BaseType.kinds.lookup kind

@[simp]
theorem BaseType.ofKind?_kind (type : BaseType) : BaseType.ofKind? type.kind = some type := by
  cases type <;> decide

/-- The kinds of types in the order in which numbers count them. -/
def GrammarType.kinds : List String :=
  BaseType.kinds.map Prod.fst ++
    ["enum", "optional", "set", "map", "vector", "struct", "tuple", "unit", "named"]

/-- The kinds of items in the order in which numbers count them. -/
def UnitItem.kinds : List String :=
  ["field", "variable", "switch"]

/-- The kind that a tag gives by name or, where that is allowed, by number. -/
def Json.tag? (numbered : Bool) (kinds : List String) : Json → Option String
  | .string name => some name
  | .int (.ofNat number) => if numbered then kinds[number]? else none
  | _ => none

/-- The members of a kind of types besides its tag, in order. -/
def GrammarType.memberNames : String → List String
  | "enum" => ["labels"]
  | "optional" => ["inner"]
  | "set" => ["element"]
  | "map" => ["key", "value"]
  | "vector" => ["element"]
  | "struct" => ["fields"]
  | "tuple" => ["elements"]
  | "unit" => ["items"]
  | "named" => ["id"]
  | _ => []

/-- The members of a kind of items besides its tag, in order. -/
def UnitItem.memberNames : String → List String
  | "field" => ["id", "type", "transient", "void"]
  | "variable" => ["id", "type", "optional"]
  | "switch" => ["cases"]
  | _ => []

/-! ## Writing -/

/-- An object with a tag as its first member. -/
def Json.tagged (tag kind : String) (members : List (String × Json)) : Json :=
  .object ((tag, .string kind) :: members)

/-- A text that may be missing. -/
def Json.ofText? : Option String → Json
  | some text => .string text
  | none => .null

/-- The form of a label. -/
def EnumLabel.toJson (label : EnumLabel) : Json :=
  .object [("id", .string label.id), ("value", .int label.value.toInt)]

mutual

/-- The form of a type. -/
def GrammarType.toJson : GrammarType → Json
  | .base type => .tagged "kind" type.kind []
  | .enum labels => .tagged "kind" "enum" [("labels", .array (labels.map EnumLabel.toJson))]
  | .optional inner => .tagged "kind" "optional" [("inner", inner.toJson)]
  | .set element => .tagged "kind" "set" [("element", element.toJson)]
  | .map key value => .tagged "kind" "map" [("key", key.toJson), ("value", value.toJson)]
  | .vector element => .tagged "kind" "vector" [("element", element.toJson)]
  | .struct fields => .tagged "kind" "struct" [("fields", .array (structFieldsJson fields))]
  | .tuple elements =>
      .tagged "kind" "tuple" [("elements", .array (tupleElementsJson elements))]
  | .unit items => .tagged "kind" "unit" [("items", .array (unitItemsJson items))]
  | .named id => .tagged "kind" "named" [("id", .string id.text)]

/-- The forms of the fields of a struct. -/
def structFieldsJson : List StructField → List Json
  | [] => []
  | ⟨id, type, optional⟩ :: others =>
      .object [("id", .string id), ("type", type.toJson), ("optional", .bool optional)] ::
        structFieldsJson others

/-- The forms of the elements of a tuple. -/
def tupleElementsJson : List TupleElement → List Json
  | [] => []
  | ⟨id, type⟩ :: others =>
      .object [("id", .ofText? id), ("type", type.toJson)] :: tupleElementsJson others

/-- The form of an item of a unit. -/
def UnitItem.toJson : UnitItem → Json
  | .field id type transient skipped =>
      .tagged "item" "field" [("id", .ofText? id), ("type", type.toJson),
        ("transient", .bool transient), ("void", .bool skipped)]
  | .var id type optional =>
      .tagged "item" "variable" [("id", .string id), ("type", type.toJson),
        ("optional", .bool optional)]
  | .switch cases => .tagged "item" "switch" [("cases", .array (unitItemsJson cases))]

/-- The forms of some items of a unit. -/
def unitItemsJson : List UnitItem → List Json
  | [] => []
  | first :: others => first.toJson :: unitItemsJson others

end

/-! ## Reading -/

/-- The label of a form. -/
def EnumLabel.ofJson? (json : Json) : Option EnumLabel := do
  let members ← json.members? ["id", "value"]
  let id ← Json.required members "id" Json.string?
  let value ← Json.required members "value" Json.signed?
  return ⟨id, value⟩

mutual

/-- The type of a form that is nested at most as deep as the first argument
says.  The second one tells whether the form is part of another type. -/
def GrammarType.decode? : Nat → Bool → Json → Option GrammarType
  | 0, _, _ => none
  | depth + 1, inside, json => do
      let (kind, members) ←
        json.variant? "kind" (Json.tag? inside GrammarType.kinds) GrammarType.memberNames
      match BaseType.ofKind? kind with
      | some type => return .base type
      | none =>
          let part (name : String) := Json.required members name (GrammarType.decode? depth true)
          match kind with
          | "enum" =>
              return .enum (← Json.required members "labels" (Json.array? EnumLabel.ofJson?))
          | "optional" => return .optional (← part "inner")
          | "set" => return .set (← part "element")
          | "map" => return .map (← part "key") (← part "value")
          | "vector" => return .vector (← part "element")
          | "struct" =>
              let fields := Json.array? (StructField.decode? depth)
              return .struct (← Json.required members "fields" fields)
          | "tuple" =>
              let elements := Json.array? (TupleElement.decode? depth)
              return .tuple (← Json.required members "elements" elements)
          | "unit" =>
              let items := Json.array? (UnitItem.decode? depth)
              return .unit (← Json.defaulted members "items" [] items)
          | "named" => return .named ⟨← Json.required members "id" Json.string?⟩
          | _ => none

/-- The field of a form. -/
def StructField.decode? : Nat → Json → Option StructField
  | 0, _ => none
  | depth + 1, json => do
      let members ← json.members? ["id", "type", "optional"]
      let id ← Json.required members "id" Json.string?
      let type ← Json.required members "type" (GrammarType.decode? depth true)
      let optional ← Json.defaulted members "optional" false Json.bool?
      return ⟨id, type, optional⟩

/-- The element of a form. -/
def TupleElement.decode? : Nat → Json → Option TupleElement
  | 0, _ => none
  | depth + 1, json => do
      let members ← json.members? ["id", "type"]
      let id ← Json.optional members "id" Json.string?
      let type ← Json.required members "type" (GrammarType.decode? depth true)
      return ⟨id, type⟩

/-- The item of a form. -/
def UnitItem.decode? : Nat → Json → Option UnitItem
  | 0, _ => none
  | depth + 1, json => do
      let (kind, members) ←
        json.variant? "item" (Json.tag? true UnitItem.kinds) UnitItem.memberNames
      match kind with
      | "field" =>
          let id ← Json.optional members "id" Json.string?
          let type ← Json.required members "type" (GrammarType.decode? depth true)
          let transient ← Json.defaulted members "transient" false Json.bool?
          let skipped ← Json.defaulted members "void" false Json.bool?
          return .field id type transient skipped
      | "variable" =>
          let id ← Json.required members "id" Json.string?
          let type ← Json.required members "type" (GrammarType.decode? depth true)
          let optional ← Json.defaulted members "optional" false Json.bool?
          return .var id type optional
      | "switch" =>
          let cases := Json.array? (UnitItem.decode? depth)
          return .switch (← Json.defaulted members "cases" [] cases)
      | _ => none

end

/-- The type of a form. -/
def GrammarType.ofJson? (json : Json) : Option GrammarType :=
  GrammarType.decode? json.nesting false json

/-- How deep arrays and objects of an index may be nested. -/
def Json.maxNesting : Nat := 127

/-- The type of a form that has the given number of arrays and objects around
it. -/
def GrammarType.load? (around : Nat) (json : Json) : Option GrammarType :=
  if json.isReadable && decide (around + json.nesting ≤ Json.maxNesting) then
    GrammarType.ofJson? json
  else none

end AnalyzerGlue
