import AnalyzerGlue.GrammarType.Index

/-!
# Types come back from their form

The form of a type in an index loses nothing: the type of the form is the type
itself, whatever it is made of.

A form is read level by level, with a bound on the levels that are left.  If the
parts come back with a bound, the whole does with one level more: types, fields,
elements and items alike.  The nesting of the form is a bound that is never used
up, so the induction is on the bound.
-/

namespace AnalyzerGlue

/-! ## Members of objects -/

namespace Json

@[simp]
theorem named_nil (name : String) : named name [] = [] :=
  rfl

@[simp]
theorem named_cons (name key : String) (value : Json) (members : List (String × Json)) :
    named name ((key, value) :: members) =
      if key = name then value :: named name members else named name members := by
  by_cases same : key = name
  · simp [named, same]
  · simp [named, same]

/-- A tagged object has its kind and its members, unless one of them has the
name of the tag. -/
theorem variant?_tagged {tag kind : String} {kind? : Json → Option String}
    {names : String → List String} {members : List (String × Json)}
    (isKind : kind? (.string kind) = some kind) (fresh : named tag members = []) :
    variant? tag kind? names (.tagged tag kind members) =
      some (kind, (tag, .string kind) :: members) := by
  have single : named tag ((tag, .string kind) :: members) = [.string kind] := by
    rw [named_cons, if_pos rfl, fresh]
  rw [tagged, variant?, required, single]
  simp only [isKind]
  rfl

@[simp]
theorem nesting_tagged (tag kind : String) (members : List (String × Json)) :
    (tagged tag kind members).nesting = nestingOfMembers members + 1 := by
  simp [tagged, nesting, nestingOfMembers]

@[simp]
theorem signed?_int (value : Int64) : signed? (.int value.toInt) = some value := by
  have low : Text.minSigned ≤ value.toInt := value.le_toInt
  have high : value.toInt ≤ Text.maxSigned := Int.lt_add_one_iff.mp value.toInt_lt
  rw [signed?, if_pos ⟨low, high⟩, Int64.ofInt_toInt]

@[simp]
theorem nesting_ofText? (text : Option String) : (ofText? text).nesting = 0 := by
  cases text with
  | none => rfl
  | some text => rfl

/-- A text that may be missing comes back as the member of an object. -/
theorem optional_ofText? {members : List (String × Json)} {name : String} {text : Option String}
    (single : named name members = [ofText? text]) :
    optional members name string? = some text := by
  rw [optional, single]
  cases text with
  | none => rfl
  | some text => rfl

end Json

/-! ## Labels -/

theorem EnumLabel.decodes_toJson (label : EnumLabel) :
    EnumLabel.ofJson? label.toJson = some label := by
  simp [ofJson?, toJson, Json.members?, Json.required, Json.string?]

theorem EnumLabel.array?_toJson (labels : List EnumLabel) :
    Json.array? EnumLabel.ofJson? (.array (labels.map EnumLabel.toJson)) = some labels := by
  rw [Json.array?]
  induction labels with
  | nil => rfl
  | cons label others ih =>
      rw [List.map_cons, List.mapM_cons, EnumLabel.decodes_toJson, ih]
      rfl

/-! ## All levels -/

/-- What comes back from its form with the given bound on the levels. -/
structure Lossless (depth : Nat) : Prop where
  type (type : GrammarType) (inside : Bool) :
    type.toJson.nesting ≤ depth → GrammarType.decode? depth inside type.toJson = some type
  fields (fields : List StructField) :
    Json.nestingOfItems (structFieldsJson fields) ≤ depth →
      (structFieldsJson fields).mapM (StructField.decode? depth) = some fields
  elements (elements : List TupleElement) :
    Json.nestingOfItems (tupleElementsJson elements) ≤ depth →
      (tupleElementsJson elements).mapM (TupleElement.decode? depth) = some elements
  items (items : List UnitItem) :
    Json.nestingOfItems (unitItemsJson items) ≤ depth →
      (unitItemsJson items).mapM (UnitItem.decode? depth) = some items

namespace Lossless

variable {depth : Nat}

/-- A type comes back with one level more than its parts. -/
theorem type_succ (ih : Lossless depth) (type : GrammarType) (inside : Bool)
    (deep : type.toJson.nesting ≤ depth + 1) :
    GrammarType.decode? (depth + 1) inside type.toJson = some type := by
  cases type with
  | base type =>
      rw [GrammarType.toJson, GrammarType.decode?, Json.variant?_tagged rfl rfl]
      simp
  | enum labels =>
      have notBase : BaseType.ofKind? "enum" = none := rfl
      rw [GrammarType.toJson, GrammarType.decode?, Json.variant?_tagged rfl rfl]
      simp [notBase, Json.required, EnumLabel.array?_toJson]
  | optional inner =>
      have notBase : BaseType.ofKind? "optional" = none := rfl
      have innerDeep : inner.toJson.nesting ≤ depth := by
        simpa [GrammarType.toJson, Json.nestingOfMembers] using deep
      rw [GrammarType.toJson, GrammarType.decode?, Json.variant?_tagged rfl rfl]
      simp [notBase, Json.required, ih.type inner true innerDeep]
  | set element =>
      have notBase : BaseType.ofKind? "set" = none := rfl
      have elementDeep : element.toJson.nesting ≤ depth := by
        simpa [GrammarType.toJson, Json.nestingOfMembers] using deep
      rw [GrammarType.toJson, GrammarType.decode?, Json.variant?_tagged rfl rfl]
      simp [notBase, Json.required, ih.type element true elementDeep]
  | map key value =>
      have notBase : BaseType.ofKind? "map" = none := rfl
      have partsDeep : key.toJson.nesting ≤ depth ∧ value.toJson.nesting ≤ depth := by
        simpa [GrammarType.toJson, Json.nestingOfMembers, Nat.max_le] using deep
      rw [GrammarType.toJson, GrammarType.decode?, Json.variant?_tagged rfl rfl]
      simp [notBase, Json.required, ih.type key true partsDeep.1, ih.type value true partsDeep.2]
  | vector element =>
      have notBase : BaseType.ofKind? "vector" = none := rfl
      have elementDeep : element.toJson.nesting ≤ depth := by
        simpa [GrammarType.toJson, Json.nestingOfMembers] using deep
      rw [GrammarType.toJson, GrammarType.decode?, Json.variant?_tagged rfl rfl]
      simp [notBase, Json.required, ih.type element true elementDeep]
  | struct fields =>
      have notBase : BaseType.ofKind? "struct" = none := rfl
      have fieldsDeep : Json.nestingOfItems (structFieldsJson fields) + 1 ≤ depth := by
        simpa [GrammarType.toJson, Json.nestingOfMembers, Json.nesting] using deep
      rw [GrammarType.toJson, GrammarType.decode?, Json.variant?_tagged rfl rfl]
      simp [notBase, Json.required, Json.array?, ih.fields fields (Nat.le_of_succ_le fieldsDeep)]
  | tuple elements =>
      have notBase : BaseType.ofKind? "tuple" = none := rfl
      have elementsDeep : Json.nestingOfItems (tupleElementsJson elements) + 1 ≤ depth := by
        simpa [GrammarType.toJson, Json.nestingOfMembers, Json.nesting] using deep
      rw [GrammarType.toJson, GrammarType.decode?, Json.variant?_tagged rfl rfl]
      simp [notBase, Json.required, Json.array?,
        ih.elements elements (Nat.le_of_succ_le elementsDeep)]
  | unit items =>
      have notBase : BaseType.ofKind? "unit" = none := rfl
      have itemsDeep : Json.nestingOfItems (unitItemsJson items) + 1 ≤ depth := by
        simpa [GrammarType.toJson, Json.nestingOfMembers, Json.nesting] using deep
      rw [GrammarType.toJson, GrammarType.decode?, Json.variant?_tagged rfl rfl]
      simp [notBase, Json.defaulted, Json.array?, ih.items items (Nat.le_of_succ_le itemsDeep)]
  | named id =>
      have notBase : BaseType.ofKind? "named" = none := rfl
      rw [GrammarType.toJson, GrammarType.decode?, Json.variant?_tagged rfl rfl]
      simp [notBase, Json.required, Json.string?]

theorem fields_succ (ih : Lossless depth) (fields : List StructField)
    (deep : Json.nestingOfItems (structFieldsJson fields) ≤ depth + 1) :
    (structFieldsJson fields).mapM (StructField.decode? (depth + 1)) = some fields := by
  induction fields with
  | nil => rfl
  | cons field others ihOthers =>
      rcases field with ⟨id, type, optional⟩
      have partsDeep : type.toJson.nesting ≤ depth ∧
          Json.nestingOfItems (structFieldsJson others) ≤ depth + 1 := by
        simpa [structFieldsJson, Json.nestingOfItems, Json.nesting, Json.nestingOfMembers,
          Nat.max_le] using deep
      rw [structFieldsJson, List.mapM_cons, StructField.decode?, Json.members?,
        ihOthers partsDeep.2]
      simp [Json.required, Json.defaulted, Json.string?, Json.bool?,
        ih.type type true partsDeep.1]

theorem elements_succ (ih : Lossless depth) (elements : List TupleElement)
    (deep : Json.nestingOfItems (tupleElementsJson elements) ≤ depth + 1) :
    (tupleElementsJson elements).mapM (TupleElement.decode? (depth + 1)) = some elements := by
  induction elements with
  | nil => rfl
  | cons element others ihOthers =>
      rcases element with ⟨id, type⟩
      have partsDeep : type.toJson.nesting ≤ depth ∧
          Json.nestingOfItems (tupleElementsJson others) ≤ depth + 1 := by
        simpa [tupleElementsJson, Json.nestingOfItems, Json.nesting, Json.nestingOfMembers,
          Nat.max_le] using deep
      have isId : Json.optional [("id", .ofText? id), ("type", type.toJson)] "id" Json.string? =
          some id :=
        Json.optional_ofText? (by simp)
      rw [tupleElementsJson, List.mapM_cons, TupleElement.decode?, Json.members?,
        ihOthers partsDeep.2]
      simp [Json.required, isId, ih.type type true partsDeep.1]

theorem item_succ (ih : Lossless depth) (item : UnitItem)
    (deep : item.toJson.nesting ≤ depth + 1) :
    UnitItem.decode? (depth + 1) item.toJson = some item := by
  cases item with
  | field id type transient skipped =>
      have typeDeep : type.toJson.nesting ≤ depth := by
        simpa [UnitItem.toJson, Json.nestingOfMembers, Json.nesting, Nat.max_le] using deep
      have isId : Json.optional [("item", .string "field"), ("id", .ofText? id),
          ("type", type.toJson), ("transient", .bool transient), ("void", .bool skipped)] "id"
          Json.string? = some id :=
        Json.optional_ofText? (by simp)
      rw [UnitItem.toJson, UnitItem.decode?, Json.variant?_tagged rfl rfl]
      simp [Json.required, Json.defaulted, Json.bool?, isId, ih.type type true typeDeep]
  | var id type optional =>
      have typeDeep : type.toJson.nesting ≤ depth := by
        simpa [UnitItem.toJson, Json.nestingOfMembers, Json.nesting, Nat.max_le] using deep
      rw [UnitItem.toJson, UnitItem.decode?, Json.variant?_tagged rfl rfl]
      simp [Json.required, Json.defaulted, Json.string?, Json.bool?,
        ih.type type true typeDeep]
  | switch cases =>
      have casesDeep : Json.nestingOfItems (unitItemsJson cases) + 1 ≤ depth := by
        simpa [UnitItem.toJson, Json.nestingOfMembers, Json.nesting] using deep
      rw [UnitItem.toJson, UnitItem.decode?, Json.variant?_tagged rfl rfl]
      simp [Json.defaulted, Json.array?, ih.items cases (Nat.le_of_succ_le casesDeep)]

theorem items_succ (ih : Lossless depth) (items : List UnitItem)
    (deep : Json.nestingOfItems (unitItemsJson items) ≤ depth + 1) :
    (unitItemsJson items).mapM (UnitItem.decode? (depth + 1)) = some items := by
  induction items with
  | nil => rfl
  | cons item others ihOthers =>
      rw [unitItemsJson, Json.nestingOfItems, Nat.max_le] at deep
      rw [unitItemsJson, List.mapM_cons, ih.item_succ item deep.1, ihOthers deep.2]
      rfl

end Lossless

/-- Every form is nested. -/
theorem GrammarType.nesting_toJson_pos (type : GrammarType) : 0 < type.toJson.nesting := by
  cases type <;> simp [toJson]

theorem UnitItem.nesting_toJson_pos (item : UnitItem) : 0 < item.toJson.nesting := by
  cases item <;> simp [toJson]

theorem lossless (depth : Nat) : Lossless depth := by
  induction depth with
  | zero =>
      constructor
      · intro type inside deep
        exact absurd type.nesting_toJson_pos (Nat.not_lt.mpr deep)
      · intro fields deep
        cases fields with
        | nil => rfl
        | cons field others =>
            rcases field with ⟨id, type, optional⟩
            simp [structFieldsJson, Json.nestingOfItems, Json.nesting] at deep
      · intro elements deep
        cases elements with
        | nil => rfl
        | cons element others =>
            rcases element with ⟨id, type⟩
            simp [tupleElementsJson, Json.nestingOfItems, Json.nesting] at deep
      · intro items deep
        cases items with
        | nil => rfl
        | cons item others =>
            rw [unitItemsJson, Json.nestingOfItems, Nat.max_le] at deep
            exact absurd item.nesting_toJson_pos (Nat.not_lt.mpr deep.1)
  | succ depth ih =>
      constructor
      · exact ih.type_succ
      · exact ih.fields_succ
      · exact ih.elements_succ
      · exact ih.items_succ

/-- The type of the form of a type is that type. -/
theorem GrammarType.ofJson?_toJson (type : GrammarType) : ofJson? type.toJson = some type :=
  (lossless type.toJson.nesting).type type false (Nat.le_refl _)

end AnalyzerGlue
