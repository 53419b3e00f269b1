import Mathlib.Logic.Relation
import AnalyzerGlue.Proofs.Compiler.Exports

/-!
# Unfolding declared types

A reference stands for the declaration that it names.  Replacing references by what they
stand for, again and again, unfolds a type; nothing keeps track of the names on the way, so a
type with a cycle of references has no finite unfolding.

Projection does keep track of them, and this is exact: it yields a host type exactly if the
type unfolds to it, and it finds a type self-recursive only if a cycle of references can be
reached.  In particular a declaration may be used any number of times without a cycle.
-/

namespace AnalyzerGlue

/-! ## References -/

mutual

/-- The names that the host type of a type is made of. -/
def GrammarType.references : GrammarType → List QualName
  | .base _ | .enum _ => []
  | .optional inner => inner.references
  | .set element => element.references
  | .map key value => key.references ++ value.references
  | .vector element => element.references
  | .struct fields => fieldReferences fields
  | .tuple elements => elementReferences elements
  | .unit items => itemReferences items
  | .named id => [id]

/-- The names that the fields of a struct are made of. -/
def fieldReferences : List StructField → List QualName
  | [] => []
  | ⟨_, type, _⟩ :: others => type.references ++ fieldReferences others

/-- The names that the elements of a tuple are made of. -/
def elementReferences : List TupleElement → List QualName
  | [] => []
  | ⟨_, type⟩ :: others => type.references ++ elementReferences others

/-- The names that the items of a unit are made of, as far as they are kept. -/
def itemReferences : List UnitItem → List QualName
  | [] => []
  | .field (some _) type false false :: others => type.references ++ itemReferences others
  | .field _ _ _ _ :: others => itemReferences others
  | .var _ type _ :: others => type.references ++ itemReferences others
  | .switch _ :: others => itemReferences others

end

/-- The declaration with the first name refers to the second name. -/
def TypeTable.Refers (table : TypeTable) (source target : QualName) : Prop :=
  ∃ info, table.find? source = some info ∧ target ∈ info.type.references

namespace HostType

open HostRuntime Relation

/-! ## Parts -/

/-- What is projected: a type, which has a name if it is declared, or the fields, elements or
items of a record. -/
inductive Part where
  | type (id : Option QualName) (type : GrammarType)
  | fields (fields : List StructField)
  | elements (elements : List TupleElement)
  | items (items : List UnitItem)

/-- The names that a part is made of. -/
def Part.references : Part → List QualName
  | .type _ whole => whole.references
  | .fields all => fieldReferences all
  | .elements all => elementReferences all
  | .items all => itemReferences all

/-- The projection of a part: one expression for a type, and one for each field of a
record. -/
def Part.project (table : TypeTable) (inProgress : List QualName) :
    Part → Except ProjectError (List Expr)
  | .type id whole => (HostType.project table inProgress id whole).map fun expr => [expr]
  | .fields all => projectFields table inProgress all
  | .elements all => projectElements table inProgress all
  | .items all => projectItems table inProgress all

/-- A field of a unit is left out if it has no name or keeps no value. -/
def LeavesOut (id : Option String) (type : GrammarType) (transient skipped : Bool) : Prop :=
  id = none ∨ transient = true ∨ skipped = true ∨ type.isVoid = true

/-! ## Unfolding -/

/-- What a part unfolds to.  A reference unfolds to what its declaration unfolds to. -/
inductive Unfolds (table : TypeTable) : Part → List Expr → Prop where
  | base {id : Option QualName} {base : BaseType} {tag : TypeTag} :
      tag? base = some tag → Unfolds table (.type id (.base base)) [basic tag]
  | optional {id : Option QualName} {inner : GrammarType} {expr : Expr} :
      Unfolds table (.type none inner) [expr] → Unfolds table (.type id (.optional inner)) [expr]
  | set {id : Option QualName} {element : GrammarType} {expr : Expr} :
      Unfolds table (.type none element) [expr] →
        Unfolds table (.type id (.set element)) [call "create_table_type" [expr, .null]]
  | map {id : Option QualName} {key value : GrammarType} {keyExpr valueExpr : Expr} :
      Unfolds table (.type none key) [keyExpr] → Unfolds table (.type none value) [valueExpr] →
        Unfolds table (.type id (.map key value))
          [call "create_table_type" [keyExpr, valueExpr]]
  | vector {id : Option QualName} {element : GrammarType} {expr : Expr} :
      Unfolds table (.type none element) [expr] →
        Unfolds table (.type id (.vector element)) [call "create_vector_type" [expr]]
  | enum {id : QualName} {labels : List EnumLabel} :
      Unfolds table (.type (some id) (.enum labels))
        [withName "create_enum_type" id (labels.map label)]
  | struct {id : QualName} {fields : List StructField} {exprs : List Expr} :
      Unfolds table (.fields fields) exprs →
        Unfolds table (.type (some id) (.struct fields))
          [withName "create_record_type" id exprs]
  | tuple {id : QualName} {elements : List TupleElement} {exprs : List Expr} :
      Unfolds table (.elements elements) exprs →
        Unfolds table (.type (some id) (.tuple elements))
          [withName "create_record_type" id exprs]
  | unit {id : QualName} {items : List UnitItem} {exprs : List Expr} :
      Unfolds table (.items items) exprs →
        Unfolds table (.type (some id) (.unit items))
          [withName "create_record_type" id exprs]
  | named {id : Option QualName} {reference : QualName} {info : TypeInfo} {expr : Expr} :
      table.find? reference = some info →
        Unfolds table (.type (some info.id) info.type) [expr] →
          Unfolds table (.type id (.named reference)) [expr]
  | noFields : Unfolds table (.fields []) []
  | field {name : String} {type : GrammarType} {optional : Bool} {others : List StructField}
      {expr : Expr} {exprs : List Expr} :
      Unfolds table (.type none type) [expr] → Unfolds table (.fields others) exprs →
        Unfolds table (.fields (⟨name, type, optional⟩ :: others))
          (recordField name expr optional :: exprs)
  | noElements : Unfolds table (.elements []) []
  | element {name : String} {type : GrammarType} {others : List TupleElement} {expr : Expr}
      {exprs : List Expr} :
      Unfolds table (.type none type) [expr] → Unfolds table (.elements others) exprs →
        Unfolds table (.elements (⟨some name, type⟩ :: others))
          (recordField name expr false :: exprs)
  | noItems : Unfolds table (.items []) []
  | keptField {name : String} {type : GrammarType} {others : List UnitItem} {expr : Expr}
      {exprs : List Expr} :
      type.isVoid = false →
        Unfolds table (.type none type) [expr] → Unfolds table (.items others) exprs →
          Unfolds table (.items (.field (some name) type false false :: others))
            (recordField name expr true :: exprs)
  | leftOut {id : Option String} {type : GrammarType} {transient skipped : Bool}
      {others : List UnitItem} {exprs : List Expr} :
      LeavesOut id type transient skipped → Unfolds table (.items others) exprs →
        Unfolds table (.items (.field id type transient skipped :: others)) exprs
  | var {name : String} {type : GrammarType} {optional : Bool} {others : List UnitItem}
      {expr : Expr} {exprs : List Expr} :
      Unfolds table (.type none type) [expr] → Unfolds table (.items others) exprs →
        Unfolds table (.items (.var name type optional :: others))
          (recordField name expr optional :: exprs)
  | switch {branches others : List UnitItem} {exprs : List Expr} :
      Unfolds table (.items others) exprs →
        Unfolds table (.items (.switch branches :: others)) exprs

/-! ## Following projection -/

section

variable {table : TypeTable} {inProgress : List QualName} {id : Option String}
  {type : GrammarType} {transient skipped : Bool}

theorem projectItems_leftOut (leavesOut : LeavesOut id type transient skipped)
    (others : List UnitItem) :
    projectItems table inProgress (.field id type transient skipped :: others) =
      projectItems table inProgress others := by
  rw [projectItems.eq_def]
  split <;> simp_all [LeavesOut]

theorem projectItems_kept (name : String) (keepsValue : type.isVoid = false)
    (others : List UnitItem) :
    projectItems table inProgress (.field (some name) type false false :: others) = do
      let expr ← HostType.project table inProgress none type
      return recordField name expr true :: (← projectItems table inProgress others) := by
  rw [projectItems, if_neg (by simp [keepsValue])]

/-- What is left out refers to nothing. -/
theorem itemReferences_leftOut (leavesOut : LeavesOut id type transient skipped)
    (others : List UnitItem) :
    itemReferences (.field id type transient skipped :: others) = itemReferences others := by
  rw [itemReferences.eq_def]
  split
  · rename_i isNil
    cases isNil
  · rename_i isField
    cases isField
    rcases leavesOut with isNone | isTransient | isSkipped | isVoid
    · cases isNone
    · cases isTransient
    · cases isSkipped
    · cases type with
      | base base => rfl
      | _ => cases isVoid
  · rename_i isField
    cases isField
    rfl
  · rename_i isVar
    cases isVar
  · rename_i isSwitch
    cases isSwitch

end

/-- To prove something of all parts with whatever names in progress, it is enough to follow
projection: a reference that is not in progress is replaced by its declaration, with its name
in progress. -/
theorem Part.induct {table : TypeTable} {motive : List QualName → Part → Prop}
    (base : ∀ inProgress id base, motive inProgress (.type id (.base base)))
    (optional : ∀ inProgress id inner, motive inProgress (.type none inner) →
      motive inProgress (.type id (.optional inner)))
    (set : ∀ inProgress id element, motive inProgress (.type none element) →
      motive inProgress (.type id (.set element)))
    (map : ∀ inProgress id key value, motive inProgress (.type none key) →
      motive inProgress (.type none value) → motive inProgress (.type id (.map key value)))
    (vector : ∀ inProgress id element, motive inProgress (.type none element) →
      motive inProgress (.type id (.vector element)))
    (enum : ∀ inProgress id labels, motive inProgress (.type id (.enum labels)))
    (struct : ∀ inProgress id fields, motive inProgress (.fields fields) →
      motive inProgress (.type id (.struct fields)))
    (tuple : ∀ inProgress id elements, motive inProgress (.elements elements) →
      motive inProgress (.type id (.tuple elements)))
    (unit : ∀ inProgress id items, motive inProgress (.items items) →
      motive inProgress (.type id (.unit items)))
    (unknown : ∀ inProgress id reference, table.find? reference = none →
      motive inProgress (.type id (.named reference)))
    (repeated : ∀ inProgress id reference info, table.find? reference = some info →
      info.id ∈ inProgress → motive inProgress (.type id (.named reference)))
    (fresh : ∀ inProgress id reference info, table.find? reference = some info →
      info.id ∉ inProgress → motive (info.id :: inProgress) (.type (some info.id) info.type) →
      motive inProgress (.type id (.named reference)))
    (noFields : ∀ inProgress, motive inProgress (.fields []))
    (field : ∀ inProgress name type optional others, motive inProgress (.type none type) →
      motive inProgress (.fields others) →
      motive inProgress (.fields (⟨name, type, optional⟩ :: others)))
    (noElements : ∀ inProgress, motive inProgress (.elements []))
    (unnamed : ∀ inProgress type others, motive inProgress (.elements (⟨none, type⟩ :: others)))
    (element : ∀ inProgress name type others, motive inProgress (.type none type) →
      motive inProgress (.elements others) →
      motive inProgress (.elements (⟨some name, type⟩ :: others)))
    (noItems : ∀ inProgress, motive inProgress (.items []))
    (keptField : ∀ inProgress name type others, type.isVoid = false →
      motive inProgress (.type none type) → motive inProgress (.items others) →
      motive inProgress (.items (.field (some name) type false false :: others)))
    (leftOut : ∀ inProgress id type transient skipped others,
      LeavesOut id type transient skipped → motive inProgress (.items others) →
      motive inProgress (.items (.field id type transient skipped :: others)))
    (var : ∀ inProgress name type optional others, motive inProgress (.type none type) →
      motive inProgress (.items others) →
      motive inProgress (.items (.var name type optional :: others)))
    (switch : ∀ inProgress branches others, motive inProgress (.items others) →
      motive inProgress (.items (.switch branches :: others)))
    (inProgress : List QualName) (part : Part) : motive inProgress part := by
  have all := project.mutual_induct table
    (fun inProgress id type => motive inProgress (.type id type))
    (fun inProgress items => motive inProgress (.items items))
    (fun inProgress elements => motive inProgress (.elements elements))
    (fun inProgress fields => motive inProgress (.fields fields))
    (fun inProgress id type _ _ => base inProgress id type)
    (fun inProgress id type _ => base inProgress id type)
    optional set map vector enum struct tuple unit unknown repeated
    (fun inProgress id reference info found isFresh _ =>
      fresh inProgress id reference info found isFresh)
    noItems
    (fun inProgress name type others isVoid =>
      leftOut inProgress (some name) type false false others (.inr (.inr (.inr isVoid))))
    (fun inProgress name type others notVoid =>
      keptField inProgress name type others (Bool.eq_false_iff.mpr notVoid))
    (fun inProgress id type transient skipped others notKept => by
      refine leftOut inProgress id type transient skipped others ?_
      cases id with
      | none => exact .inl rfl
      | some name =>
          cases transient with
          | true => exact .inr (.inl rfl)
          | false =>
              cases skipped with
              | true => exact .inr (.inr (.inl rfl))
              | false => exact absurd rfl (notKept name rfl rfl))
    var switch noElements unnamed element noFields field
  cases part with
  | type id type => exact all.1 inProgress id type
  | fields fields => exact all.2.2.2 inProgress fields
  | elements elements => exact all.2.2.1 inProgress elements
  | items items => exact all.2.1 inProgress items

/-! ## What a result says -/

/-- The value has a property, or there is an error; that a type is self-recursive is claimed
for a reason only. -/
def Justified {α : Type} (holds : α → Prop) (reason : Prop) : Except ProjectError α → Prop
  | .ok value => holds value
  | .error error => error = .selfRecursive → reason

namespace Justified

variable {α β : Type} {holds : α → Prop} {holdsNext : β → Prop} {reason : Prop}

theorem pure {value : α} (isHeld : holds value) :
    Justified holds reason (Pure.pure value) :=
  isHeld

theorem bind {first : Except ProjectError α} {next : α → Except ProjectError β}
    (justified : Justified holds reason first)
    (justifiedNext : ∀ value, holds value → Justified holdsNext reason (next value)) :
    Justified holdsNext reason (first >>= next) := by
  cases first with
  | error error => exact justified
  | ok value => exact justifiedNext value justified

theorem map {implied : α → Prop} {result : Except ProjectError α}
    (justified : Justified holds reason result) (implies : ∀ value, holds value → implied value) :
    Justified implied reason result := by
  cases result with
  | error error => exact justified
  | ok value => exact implies value justified

theorem mono {weaker : Prop} {result : Except ProjectError α}
    (justified : Justified holds reason result) (implies : reason → weaker) :
    Justified holds weaker result := by
  cases result with
  | error error => exact fun isCycle => implies (justified isCycle)
  | ok value => exact justified

theorem nameOr {typename : String} {id : Option QualName} :
    Justified (fun name => id = some name) reason (HostType.nameOr typename id) := by
  cases id with
  | none => exact fun isCycle => by cases isCycle
  | some name => rfl

end Justified

/-- Following some of the references leads to a name in progress, or to one that refers back
to itself. -/
def ComesBack (table : TypeTable) (inProgress references : List QualName) : Prop :=
  ∃ source ∈ references, ∃ target, ReflTransGen table.Refers source target ∧
    (target ∈ inProgress ∨ TransGen table.Refers target target)

theorem ComesBack.mono {table : TypeTable} {inProgress references more : List QualName}
    (comesBack : ComesBack table inProgress references) (included : references ⊆ more) :
    ComesBack table inProgress more := by
  rcases comesBack with ⟨source, member, target, way, isBack⟩
  exact ⟨source, included member, target, way, isBack⟩

/-- A way back from a declaration is one from the reference that stands for it. -/
theorem ComesBack.ofDeclaration {table : TypeTable} {inProgress : List QualName}
    {reference : QualName} {info : TypeInfo} (found : table.find? reference = some info)
    (comesBack : ComesBack table (info.id :: inProgress) info.type.references) :
    ComesBack table inProgress [reference] := by
  rcases comesBack with ⟨source, member, target, way, isBack⟩
  have refers : table.Refers reference source := ⟨info, found, member⟩
  rw [TypeTable.id_eq_of_find?_eq_some found, List.mem_cons] at isBack
  rcases isBack with (rfl | isPending) | isCycle
  · exact ⟨target, List.mem_cons_self, target, .refl, .inr (.head' refers way)⟩
  · exact ⟨reference, List.mem_cons_self, target, .head refers way, .inl isPending⟩
  · exact ⟨reference, List.mem_cons_self, target, .head refers way, .inr isCycle⟩

section Exactness

variable {table : TypeTable}

theorem Part.justified_type_iff {inProgress : List QualName} {id : Option QualName}
    {type : GrammarType} {reason : Prop} :
    Justified (Unfolds table (.type id type)) reason
        ((Part.type id type).project table inProgress) ↔
      Justified (fun expr => Unfolds table (.type id type) [expr]) reason
        (HostType.project table inProgress id type) := by
  rw [Part.project]
  cases HostType.project table inProgress id type <;> rfl

/-- The first of some record fields and then the others. -/
theorem justified_record {inProgress : List QualName} {type : GrammarType} {others all : Part}
    {name : String} {optional : Bool} {rest : Except ProjectError (List Expr)}
    (isAll : all.references = type.references ++ others.references)
    (justified : Justified (fun expr => Unfolds table (.type none type) [expr])
      (ComesBack table inProgress type.references)
      (HostType.project table inProgress none type))
    (justifiedRest : Justified (Unfolds table others)
      (ComesBack table inProgress others.references) rest)
    (unfolds : ∀ expr exprs, Unfolds table (.type none type) [expr] →
      Unfolds table others exprs → Unfolds table all (recordField name expr optional :: exprs)) :
    Justified (Unfolds table all) (ComesBack table inProgress all.references) (do
      let expr ← HostType.project table inProgress none type
      return recordField name expr optional :: (← rest)) := by
  rw [isAll]
  refine (justified.mono fun back => back.mono (List.subset_append_left _ _)).bind
    fun expr unfoldsType => ?_
  refine (justifiedRest.mono fun back => back.mono (List.subset_append_right _ _)).bind
    fun exprs unfoldsRest => ?_
  exact .pure (unfolds expr exprs unfoldsType unfoldsRest)

/-- What projection yields is an unfolding, and what it finds self-recursive comes back to
where it has been. -/
theorem Part.justified_project (inProgress : List QualName) (part : Part) :
    Justified (Unfolds table part) (ComesBack table inProgress part.references)
      (part.project table inProgress) := by
  induction inProgress, part using @Part.induct table with
  | base inProgress id base =>
      rw [justified_type_iff, HostType.project]
      split
      · rename_i tag isTag
        exact .base isTag
      · exact fun isCycle => by cases isCycle
  | optional inProgress id inner ih =>
      rw [justified_type_iff] at ih ⊢
      rw [HostType.project]
      exact ih.map fun expr unfolds => .optional unfolds
  | set inProgress id element ih =>
      rw [justified_type_iff] at ih ⊢
      rw [HostType.project]
      exact ih.bind fun expr unfolds => .pure (.set unfolds)
  | map inProgress id key value ihKey ihValue =>
      rw [justified_type_iff] at ihKey ihValue ⊢
      rw [HostType.project]
      refine (ihKey.mono fun back => back.mono (List.subset_append_left _ _)).bind
        fun keyExpr unfoldsKey => ?_
      refine (ihValue.mono fun back => back.mono (List.subset_append_right _ _)).bind
        fun valueExpr unfoldsValue => ?_
      exact .pure (.map unfoldsKey unfoldsValue)
  | vector inProgress id element ih =>
      rw [justified_type_iff] at ih ⊢
      rw [HostType.project]
      exact ih.bind fun expr unfolds => .pure (.vector unfolds)
  | enum inProgress id labels =>
      rw [justified_type_iff, HostType.project]
      refine Justified.nameOr.bind fun name isName => ?_
      cases isName
      exact .pure .enum
  | struct inProgress id fields ih =>
      rw [justified_type_iff, HostType.project]
      refine Justified.nameOr.bind fun name isName => ?_
      cases isName
      exact ih.bind fun exprs unfolds => .pure (.struct unfolds)
  | tuple inProgress id elements ih =>
      rw [justified_type_iff, HostType.project]
      refine Justified.nameOr.bind fun name isName => ?_
      cases isName
      exact ih.bind fun exprs unfolds => .pure (.tuple unfolds)
  | unit inProgress id items ih =>
      rw [justified_type_iff, HostType.project]
      refine Justified.nameOr.bind fun name isName => ?_
      cases isName
      exact ih.bind fun exprs unfolds => .pure (.unit unfolds)
  | unknown inProgress id reference absent =>
      rw [justified_type_iff, project_named, absent]
      exact fun isCycle => by cases isCycle
  | repeated inProgress id reference info found isPending =>
      rw [justified_type_iff, project_named]
      simp only [found, if_pos isPending]
      rw [TypeTable.id_eq_of_find?_eq_some found] at isPending
      exact fun _ => ⟨reference, List.mem_cons_self, reference, .refl, .inl isPending⟩
  | fresh inProgress id reference info found isFresh ih =>
      rw [justified_type_iff] at ih ⊢
      rw [project_named]
      simp only [found, if_neg isFresh]
      exact (ih.mono fun back => back.ofDeclaration found).map
        fun expr unfolds => .named found unfolds
  | noFields inProgress =>
      rw [Part.project, projectFields]
      exact .noFields
  | field inProgress name type optional others ihType ihOthers =>
      rw [justified_type_iff] at ihType
      rw [Part.project, projectFields]
      exact justified_record rfl ihType ihOthers fun expr exprs => .field
  | noElements inProgress =>
      rw [Part.project, projectElements]
      exact .noElements
  | unnamed inProgress type others =>
      rw [Part.project, projectElements]
      exact fun isCycle => by cases isCycle
  | element inProgress name type others ihType ihOthers =>
      rw [justified_type_iff] at ihType
      rw [Part.project, projectElements]
      exact justified_record rfl ihType ihOthers fun expr exprs => .element
  | noItems inProgress =>
      rw [Part.project, projectItems]
      exact .noItems
  | keptField inProgress name type others keepsValue ihType ihOthers =>
      rw [justified_type_iff] at ihType
      rw [Part.project, projectItems_kept name keepsValue]
      exact justified_record rfl ihType ihOthers fun expr exprs => .keptField keepsValue
  | leftOut inProgress id type transient skipped others leavesOut ih =>
      rw [Part.project, projectItems_leftOut leavesOut, Part.references,
        itemReferences_leftOut leavesOut]
      exact ih.map fun exprs unfolds => .leftOut leavesOut unfolds
  | var inProgress name type optional others ihType ihOthers =>
      rw [justified_type_iff] at ihType
      rw [Part.project, projectItems]
      exact justified_record rfl ihType ihOthers fun expr exprs => .var
  | switch inProgress branches others ih =>
      rw [Part.project, projectItems]
      exact ih.map fun exprs unfolds => .switch unfolds

/-! ## Cycles -/

/-- No cycle can be reached from a part with an unfolding. -/
theorem Unfolds.not_cycle {part : Part} {exprs : List Expr} (unfolds : Unfolds table part exprs) :
    ∀ source ∈ part.references, ∀ target, ReflTransGen table.Refers source target →
      ¬ TransGen table.Refers target target := by
  induction unfolds with
  | base | enum | noFields | noElements | noItems => exact List.forall_mem_nil _
  | optional _ ih | set _ ih | vector _ ih | struct _ ih | tuple _ ih | unit _ ih
  | switch _ ih => exact ih
  | map _ _ ihFirst ihSecond | field _ _ ihFirst ihSecond | element _ _ ihFirst ihSecond
  | keptField _ _ _ ihFirst ihSecond | var _ _ ihFirst ihSecond =>
      exact List.forall_mem_append.mpr ⟨ihFirst, ihSecond⟩
  | leftOut leavesOut _ ih =>
      rw [Part.references, itemReferences_leftOut leavesOut]
      exact ih
  | @named id reference info expr found _ ih =>
      have behind : ∀ next, table.Refers reference next → ∀ target,
          ReflTransGen table.Refers next target → ¬ TransGen table.Refers target target := by
        rintro next ⟨other, isOther, member⟩
        rw [found] at isOther
        cases isOther
        exact ih next member
      intro source member target way cycle
      cases List.mem_singleton.mp member
      rcases way.cases_head with rfl | ⟨next, refers, rest⟩
      · -- The cycle itself leads from the reference back to it.
        rcases TransGen.head'_iff.mp cycle with ⟨next, refers, rest⟩
        exact behind next refers reference rest cycle
      · exact behind next refers target rest cycle

theorem Part.project_type_eq_ok_iff {inProgress : List QualName} {id : Option QualName}
    {type : GrammarType} {expr : Expr} :
    (Part.type id type).project table inProgress = .ok [expr] ↔
      HostType.project table inProgress id type = .ok expr := by
  rw [Part.project]
  cases HostType.project table inProgress id type <;> simp [Except.map]

theorem record_eq_ok {inProgress : List QualName} {type : GrammarType} {name : String}
    {optional : Bool} {rest : Except ProjectError (List Expr)} {expr : Expr} {exprs : List Expr}
    (projected : (Part.type none type).project table inProgress = .ok [expr])
    (projectedRest : rest = .ok exprs) :
    (do
      let expr ← HostType.project table inProgress none type
      return recordField name expr optional :: (← rest)) =
        .ok (recordField name expr optional :: exprs) := by
  rw [Part.project_type_eq_ok_iff.mp projected, projectedRest]
  rfl

/-- A part with an unfolding is projected to it, if it does not lead to a name in
progress. -/
theorem Unfolds.project_eq_ok {part : Part} {exprs : List Expr}
    (unfolds : Unfolds table part exprs) {inProgress : List QualName}
    (apart : ∀ source ∈ part.references, ∀ target ∈ inProgress,
      ¬ ReflTransGen table.Refers source target) :
    part.project table inProgress = .ok exprs := by
  induction unfolds generalizing inProgress with
  | base isTag =>
      rw [Part.project_type_eq_ok_iff, HostType.project, isTag]
  | optional _ ih =>
      rw [Part.project_type_eq_ok_iff, HostType.project, ← Part.project_type_eq_ok_iff]
      exact ih apart
  | set _ ih | vector _ ih =>
      have projected := Part.project_type_eq_ok_iff.mp (ih apart)
      rw [Part.project_type_eq_ok_iff, HostType.project, projected]
      rfl
  | map _ _ ihKey ihValue =>
      have projectedKey := Part.project_type_eq_ok_iff.mp
        (ihKey (List.forall_mem_append.mp apart).1)
      have projectedValue := Part.project_type_eq_ok_iff.mp
        (ihValue (List.forall_mem_append.mp apart).2)
      rw [Part.project_type_eq_ok_iff, HostType.project, projectedKey, projectedValue]
      rfl
  | enum =>
      rw [Part.project_type_eq_ok_iff, HostType.project]
      rfl
  | struct _ ih | tuple _ ih | unit _ ih =>
      have projected := ih apart
      rw [Part.project] at projected
      rw [Part.project_type_eq_ok_iff, HostType.project, projected]
      rfl
  | @named id reference info expr found unfolds ih =>
      have isReference := TypeTable.id_eq_of_find?_eq_some found
      have isFresh : info.id ∉ inProgress := by
        rw [isReference]
        exact fun pending => apart reference List.mem_cons_self reference pending .refl
      rw [Part.project_type_eq_ok_iff, project_named]
      simp only [found, if_neg isFresh]
      rw [← Part.project_type_eq_ok_iff]
      refine ih fun source member target isPending way => ?_
      have refers : table.Refers reference source := ⟨info, found, member⟩
      rw [isReference, List.mem_cons] at isPending
      rcases isPending with rfl | isOlder
      · -- A way back to the reference would be a cycle.
        exact unfolds.not_cycle source member target way (.head' refers way)
      · exact apart reference List.mem_cons_self target isOlder (.head refers way)
  | noFields => rw [Part.project, projectFields]
  | noElements => rw [Part.project, projectElements]
  | noItems => rw [Part.project, projectItems]
  | field _ _ ihType ihOthers =>
      rw [Part.project, projectFields]
      exact record_eq_ok (ihType (List.forall_mem_append.mp apart).1)
        (ihOthers (List.forall_mem_append.mp apart).2)
  | element _ _ ihType ihOthers =>
      rw [Part.project, projectElements]
      exact record_eq_ok (ihType (List.forall_mem_append.mp apart).1)
        (ihOthers (List.forall_mem_append.mp apart).2)
  | keptField keepsValue _ _ ihType ihOthers =>
      rw [Part.project, projectItems_kept _ keepsValue]
      exact record_eq_ok (ihType (List.forall_mem_append.mp apart).1)
        (ihOthers (List.forall_mem_append.mp apart).2)
  | leftOut leavesOut _ ih =>
      rw [Part.references, itemReferences_leftOut leavesOut] at apart
      rw [Part.project, projectItems_leftOut leavesOut]
      exact ih apart
  | var _ _ ihType ihOthers =>
      rw [Part.project, projectItems]
      exact record_eq_ok (ihType (List.forall_mem_append.mp apart).1)
        (ihOthers (List.forall_mem_append.mp apart).2)
  | switch _ ih =>
      rw [Part.project, projectItems]
      exact ih apart

end Exactness

end HostType

end AnalyzerGlue
