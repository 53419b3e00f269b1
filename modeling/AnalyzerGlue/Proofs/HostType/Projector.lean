import AnalyzerGlue.Proofs.HostType.Unfolding

/-!
# The projector

Projection is told the names in progress.  A projector has one set of them instead, which it
changes as it goes: a name is entered before its declaration is projected and taken out behind
it, while errors leave from any depth.  One projector serves all exported types, one after
another.

The main statements are that a projector ends, that it leaves the set as it has found it
whatever happens in between, and that it gives what projection gives.  So a type fares with a
projector that has been used as it does with a new one.
-/

namespace AnalyzerGlue.Projector

open HostType HostRuntime

/-! ## Actions -/

/-- What a projector does.  It may fail, but has some names in progress behind it also then;
and it comes to nothing if it runs out of steps. -/
abbrev Action (α : Type) : Type :=
  ExceptT ProjectError (StateT (List QualName) Option) α

/-- The result of an action and the names in progress behind it. -/
def Action.runFrom {α : Type} (action : Action α) (names : List QualName) :
    Option (Except ProjectError α × List QualName) :=
  action.run.run names

theorem runFrom_bind {α β : Type} (action : Action α) (next : α → Action β)
    (names : List QualName) :
    (action >>= next).runFrom names =
      (action.runFrom names).bind fun outcome =>
        match outcome.1 with
        | .ok value => (next value).runFrom outcome.2
        | .error error => some (.error error, outcome.2) := by
  show (action.runFrom names).bind (fun outcome => ExceptT.bindCont next outcome.1 outcome.2) = _
  congr 1
  funext outcome
  rcases outcome with ⟨error | value, after⟩ <;> rfl

/-- Does something with a name in progress.  The name is taken out also if this fails. -/
def enter (id : QualName) (action : Action Expr) : Action Expr := do
  if id ∈ (← get) then throw .selfRecursive
  else
    modify fun names => id :: names
    let result ← ExceptT.lift action.run
    modify fun names => names.erase id
    MonadExcept.ofExcept result

theorem runFrom_enter (id : QualName) (action : Action Expr) (names : List QualName) :
    (enter id action).runFrom names =
      if id ∈ names then some (.error .selfRecursive, names)
      else (action.runFrom (id :: names)).map fun outcome => (outcome.1, outcome.2.erase id) := by
  have isRun : (enter id action).runFrom names =
      (if id ∈ names then throw .selfRecursive
        else do
          modify fun names => id :: names
          let result ← ExceptT.lift action.run
          modify fun names => names.erase id
          MonadExcept.ofExcept result : Action Expr).runFrom names := rfl
  rw [isRun]
  split
  · rfl
  · have isInner : action.runFrom (id :: names) = action.run (id :: names) := rfl
    show Option.bind (Option.bind (action.run (id :: names)) _) _ = _
    rw [isInner]
    rcases action.run (id :: names) with _ | ⟨_ | _, after⟩ <;> rfl

/-- There are no more steps. -/
def stuck {α : Type} : Action α :=
  ExceptT.mk fun _ => none

/-- The name of a type, or an error if it has none. -/
def nameOf (typename : String) (id : Option QualName) : Action QualName :=
  MonadExcept.ofExcept (nameOr typename id)

mutual

/-- The host type of a type.  The number of steps bounds how many references are followed one
inside another. -/
def projectType (table : TypeTable) (steps : Nat) (id : Option QualName) (type : GrammarType) :
    Action Expr :=
  match type with
  | .base base =>
      match tag? base with
      | some tag => return basic tag
      | none => throw (.unsupported base.typename)
  | .optional inner => projectType table steps none inner
  | .set element => do
      let element ← projectType table steps none element
      return call "create_table_type" [element, .null]
  | .map key value => do
      let key ← projectType table steps none key
      let value ← projectType table steps none value
      return call "create_table_type" [key, value]
  | .vector element => do
      let element ← projectType table steps none element
      return call "create_vector_type" [element]
  | .enum labels => do
      let id ← nameOf "enum" id
      return withName "create_enum_type" id (labels.map label)
  | .struct fields => do
      let id ← nameOf "struct" id
      return withName "create_record_type" id (← recordFields table steps fields)
  | .tuple elements => do
      let id ← nameOf "tuple" id
      return withName "create_record_type" id (← recordElements table steps elements)
  | .unit items => do
      let id ← nameOf "unit" id
      return withName "create_record_type" id (← recordItems table steps items)
  | .named reference =>
      match table.find? reference with
      | none => throw (.lookup (.unknown reference))
      | some info =>
          enter info.id <|
            match steps with
            | 0 => stuck
            | steps + 1 => projectType table steps (some info.id) info.type
termination_by (steps, sizeOf type)

/-- The record fields for the fields of a struct. -/
def recordFields (table : TypeTable) (steps : Nat) (fields : List StructField) :
    Action (List Expr) :=
  match fields with
  | [] => return []
  | ⟨name, type, optional⟩ :: others => do
      let type ← projectType table steps none type
      return recordField name type optional :: (← recordFields table steps others)
termination_by (steps, sizeOf fields)

/-- The record fields for the elements of a tuple. -/
def recordElements (table : TypeTable) (steps : Nat) (elements : List TupleElement) :
    Action (List Expr) :=
  match elements with
  | [] => return []
  | ⟨none, _⟩ :: _ => throw .unnamedElement
  | ⟨some name, type⟩ :: others => do
      let type ← projectType table steps none type
      return recordField name type false :: (← recordElements table steps others)
termination_by (steps, sizeOf elements)

/-- The record fields for the items of a unit. -/
def recordItems (table : TypeTable) (steps : Nat) (items : List UnitItem) :
    Action (List Expr) :=
  match items with
  | [] => return []
  | .field (some name) type false false :: others =>
      if type.isVoid then recordItems table steps others
      else do
        let type ← projectType table steps none type
        return recordField name type true :: (← recordItems table steps others)
  | .field _ _ _ _ :: others => recordItems table steps others
  | .var name type optional :: others => do
      let type ← projectType table steps none type
      return recordField name type optional :: (← recordItems table steps others)
  | .switch _ :: others => recordItems table steps others
termination_by (steps, sizeOf items)

end

/-- The host type of a type, which is in progress under its name if it has one. -/
def project (table : TypeTable) (steps : Nat) (type : GrammarType) : Option QualName → Action Expr
  | none => projectType table steps none type
  | some id => enter id (projectType table steps (some id) type)

/-- The host type of a declaration, whose name needs a qualifier. -/
def declared (table : TypeTable) (steps : Nat) (type : GrammarType) (id : QualName) :
    Action Expr :=
  if id.qualifier.isEmpty then throw (.missingQualifier id)
  else project table steps type (some id)

/-! ## Answers -/

/-- The action ends with a result and leaves the names in progress as it has found them. -/
def Answers {α : Type} (action : Action α) (names : List QualName)
    (result : Except ProjectError α) : Prop :=
  action.runFrom names = some (result, names)

namespace Answers

variable {α β : Type} {names : List QualName}

theorem pure (value : α) : Answers (Pure.pure value) names (.ok value) :=
  rfl

theorem throw (error : ProjectError) :
    Answers (MonadExcept.throw error : Action α) names (.error error) :=
  rfl

theorem ofExcept (result : Except ProjectError α) :
    Answers (MonadExcept.ofExcept result) names result := by
  cases result <;> rfl

theorem bind {action : Action α} {next : α → Action β} {result : Except ProjectError α}
    {nextResult : α → Except ProjectError β} (answers : Answers action names result)
    (answersNext : ∀ value, Answers (next value) names (nextResult value)) :
    Answers (action >>= next) names (result >>= nextResult) := by
  rw [Answers, runFrom_bind, answers]
  cases result with
  | error error => rfl
  | ok value => exact answersNext value

/-- A name that is in progress is not entered again. -/
theorem enter_of_mem {id : QualName} (isPending : id ∈ names) (action : Action Expr) :
    Answers (enter id action) names (.error .selfRecursive) := by
  rw [Answers, runFrom_enter, if_pos isPending]

/-- What has been done with a name in progress leaves the names without it. -/
theorem enter_of_not_mem {id : QualName} {action : Action Expr} {result : Except ProjectError Expr}
    (isFresh : id ∉ names) (answers : Answers action (id :: names) result) :
    Answers (enter id action) names result := by
  rw [Answers, runFrom_enter, if_neg isFresh, answers, Option.map_some, List.erase_cons_head]

end Answers

/-! ## Parts -/

/-- What a projector does for a part. -/
def ofPart (table : TypeTable) (steps : Nat) : Part → Action (List Expr)
  | .type id type => do return [← projectType table steps id type]
  | .fields fields => recordFields table steps fields
  | .elements elements => recordElements table steps elements
  | .items items => recordItems table steps items

section

variable {table : TypeTable} {steps : Nat} {names : List QualName}

theorem answers_type_iff {id : Option QualName} {type : GrammarType} :
    Answers (ofPart table steps (.type id type)) names ((Part.type id type).project table names) ↔
      Answers (projectType table steps id type) names (HostType.project table names id type) := by
  have isProjected : (Part.type id type).project table names =
      (HostType.project table names id type).map fun expr => [expr] := rfl
  rw [Answers, Answers, ofPart, runFrom_bind, isProjected]
  rcases (projectType table steps id type).runFrom names with _ | ⟨error | expr, after⟩
  · simp
  · cases HostType.project table names id type <;> simp [Except.map]
  · have isPure : (pure [expr] : Action (List Expr)).runFrom after = some (.ok [expr], after) := rfl
    cases HostType.project table names id type <;> simp [Except.map, isPure]

theorem answers_record {type : GrammarType} {name : String} {optional : Bool}
    {rest : Action (List Expr)} {restResult : Except ProjectError (List Expr)}
    (answers : Answers (projectType table steps none type) names
      (HostType.project table names none type))
    (answersRest : Answers rest names restResult) :
    Answers (do
        let type ← projectType table steps none type
        return recordField name type optional :: (← rest)) names (do
        let type ← HostType.project table names none type
        return recordField name type optional :: (← restResult)) :=
  answers.bind fun _ => answersRest.bind fun _ => .pure _

theorem recordItems_leftOut {id : Option String} {type : GrammarType} {transient skipped : Bool}
    (leavesOut : LeavesOut id type transient skipped) (others : List UnitItem) :
    recordItems table steps (.field id type transient skipped :: others) =
      recordItems table steps others := by
  rw [recordItems.eq_def]
  split <;> simp_all [LeavesOut]

/-- With enough steps for the declarations that are not in progress, a projector gives what
projection gives, and the names in progress are the same behind it. -/
theorem answers_ofPart (part : Part) (enough : pending table names ≤ steps) :
    Answers (ofPart table steps part) names (part.project table names) := by
  induction names, part using @Part.induct table generalizing steps with
  | base names id base =>
      rw [answers_type_iff, projectType, HostType.project]
      cases tag? base with
      | some tag => exact .pure _
      | none => exact .throw _
  | optional names id inner ih =>
      have answers := answers_type_iff.mp (ih enough)
      rw [answers_type_iff, projectType, HostType.project]
      exact answers
  | set names id element ih =>
      have answers := answers_type_iff.mp (ih enough)
      rw [answers_type_iff, projectType, HostType.project]
      exact answers.bind fun _ => .pure _
  | map names id key value ihKey ihValue =>
      have answersKey := answers_type_iff.mp (ihKey enough)
      have answersValue := answers_type_iff.mp (ihValue enough)
      rw [answers_type_iff, projectType, HostType.project]
      exact answersKey.bind fun _ => answersValue.bind fun _ => .pure _
  | vector names id element ih =>
      have answers := answers_type_iff.mp (ih enough)
      rw [answers_type_iff, projectType, HostType.project]
      exact answers.bind fun _ => .pure _
  | enum names id labels =>
      rw [answers_type_iff, projectType, HostType.project]
      exact (Answers.ofExcept _).bind fun _ => .pure _
  | struct names id fields ih =>
      rw [answers_type_iff, projectType, HostType.project]
      exact (Answers.ofExcept _).bind fun _ => (ih enough).bind fun _ => .pure _
  | tuple names id elements ih =>
      rw [answers_type_iff, projectType, HostType.project]
      exact (Answers.ofExcept _).bind fun _ => (ih enough).bind fun _ => .pure _
  | unit names id items ih =>
      rw [answers_type_iff, projectType, HostType.project]
      exact (Answers.ofExcept _).bind fun _ => (ih enough).bind fun _ => .pure _
  | unknown names id reference absent =>
      rw [answers_type_iff, projectType, project_named]
      simp only [absent]
      exact .throw _
  | repeated names id reference info found isPending =>
      rw [answers_type_iff, projectType, project_named]
      simp only [found, if_pos isPending]
      exact .enter_of_mem isPending _
  | fresh names id reference info found isFresh ih =>
      have fewer := pending_cons_lt (TypeTable.mem_types_of_find?_eq_some found) isFresh
      rw [answers_type_iff, projectType, project_named]
      simp only [found, if_neg isFresh]
      cases steps with
      | zero => omega
      | succ steps =>
          have answers := answers_type_iff.mp (@ih steps (by omega))
          exact .enter_of_not_mem isFresh answers
  | noFields names =>
      rw [ofPart, Part.project, recordFields, projectFields]
      exact .pure _
  | field names name type optional others ihType ihOthers =>
      rw [ofPart, Part.project, recordFields, projectFields]
      exact answers_record (answers_type_iff.mp (ihType enough)) (ihOthers enough)
  | noElements names =>
      rw [ofPart, Part.project, recordElements, projectElements]
      exact .pure _
  | unnamed names type others =>
      rw [ofPart, Part.project, recordElements, projectElements]
      exact .throw _
  | element names name type others ihType ihOthers =>
      rw [ofPart, Part.project, recordElements, projectElements]
      exact answers_record (answers_type_iff.mp (ihType enough)) (ihOthers enough)
  | noItems names =>
      rw [ofPart, Part.project, recordItems, projectItems]
      exact .pure _
  | keptField names name type others keepsValue ihType ihOthers =>
      rw [ofPart, Part.project, recordItems, projectItems_kept name keepsValue,
        if_neg (by simp [keepsValue])]
      exact answers_record (answers_type_iff.mp (ihType enough)) (ihOthers enough)
  | leftOut names id type transient skipped others leavesOut ih =>
      rw [ofPart, Part.project, recordItems_leftOut leavesOut, projectItems_leftOut leavesOut]
      exact ih enough
  | var names name type optional others ihType ihOthers =>
      rw [ofPart, Part.project, recordItems, projectItems]
      exact answers_record (answers_type_iff.mp (ihType enough)) (ihOthers enough)
  | switch names branches others ih =>
      rw [ofPart, Part.project, recordItems, projectItems]
      exact ih enough

/-- There are no more declarations to follow than there are declarations. -/
theorem pending_le (table : TypeTable) (names : List QualName) :
    pending table names ≤ table.types.length :=
  List.length_filter_le _ _

theorem answers_projectType (enough : table.types.length ≤ steps) (id : Option QualName)
    (type : GrammarType) :
    Answers (projectType table steps id type) names (HostType.project table names id type) :=
  answers_type_iff.mp
    (answers_ofPart (.type id type) (Nat.le_trans (pending_le table names) enough))

/-- A projector leaves the names in progress as it has found them. -/
theorem exists_answers_project (enough : table.types.length ≤ steps) (names : List QualName)
    (type : GrammarType) (id : Option QualName) :
    ∃ result, Answers (project table steps type id) names result := by
  cases id with
  | none => exact ⟨_, answers_projectType enough none type⟩
  | some id =>
      by_cases isPending : id ∈ names
      · exact ⟨_, .enter_of_mem isPending _⟩
      · exact ⟨_, .enter_of_not_mem isPending (answers_projectType enough (some id) type)⟩

theorem answers_declared (enough : table.types.length ≤ steps) (type : GrammarType)
    (id : QualName) :
    Answers (declared table steps type id) [] (ofDeclaration table type id) := by
  unfold declared ofDeclaration
  split
  · exact .throw _
  · exact .enter_of_not_mem List.not_mem_nil (answers_projectType enough (some id) type)

end

/-! ## Declarations -/

theorem ofDeclaration_of_qualified {table : TypeTable} {type : GrammarType} {id : QualName}
    (isQualified : id.qualifier.isEmpty = false) :
    ofDeclaration table type id = HostType.project table [id] (some id) type := by
  rw [ofDeclaration, isQualified]
  rfl

/-- Projecting a declaration ends, within as many steps as there are declarations.  It yields
an expression exactly if the declaration unfolds to it, and it finds a declaration
self-recursive only if a name that refers back to itself can be reached from it. -/
theorem declared_exact {table : TypeTable} {id : QualName} {info : TypeInfo}
    (isDeclared : table.find? id = some info) (isQualified : id.qualifier.isEmpty = false) :
    (∀ steps, table.types.length ≤ steps →
      (declared table steps info.type id).runFrom [] =
        some (ofDeclaration table info.type id, [])) ∧
    (∀ expr, ofDeclaration table info.type id = .ok expr ↔
      Unfolds table (.type (some id) info.type) [expr]) ∧
    (ofDeclaration table info.type id = .error .selfRecursive →
      ∃ target, Relation.ReflTransGen table.Refers id target ∧
        Relation.TransGen table.Refers target target) := by
  have isProjected := @ofDeclaration_of_qualified table info.type id isQualified
  have justified := Part.justified_type_iff.mp
    (@Part.justified_project table [id] (.type (some id) info.type))
  rw [← isProjected] at justified
  refine ⟨fun steps enough => answers_declared enough info.type id, fun expr => ⟨?_, ?_⟩, ?_⟩
  · intro isOk
    rw [isOk] at justified
    exact justified
  · intro unfolds
    rw [isProjected, ← Part.project_type_eq_ok_iff]
    refine unfolds.project_eq_ok fun source member target isPending way => ?_
    cases List.mem_singleton.mp isPending
    exact unfolds.not_cycle source member id way (.head' ⟨info, isDeclared, member⟩ way)
  · intro isRecursive
    rw [isRecursive] at justified
    rcases justified rfl with ⟨source, member, target, way, isBack⟩
    have refers : table.Refers id source := ⟨info, isDeclared, member⟩
    rcases isBack with isPending | isCycle
    · cases List.mem_singleton.mp isPending
      exact ⟨id, .refl, .head' refers way⟩
    · exact ⟨target, .head refers way, isCycle⟩

/-- A declaration that is used twice is projected, and one that refers to itself is found
self-recursive. -/
theorem declared_exact_twice :
    let pair : TypeInfo := ⟨⟨"M::Pair"⟩,
      .struct [⟨"left", .named ⟨"M::Size"⟩, false⟩, ⟨"right", .named ⟨"M::Size"⟩, true⟩],
      ⟨"M"⟩, ⟨"m.spicy"⟩, none⟩
    let size : TypeInfo :=
      ⟨⟨"M::Size"⟩, .vector (.base .unsignedInteger), ⟨"M"⟩, ⟨"m.spicy"⟩, none⟩
    let list : TypeInfo := ⟨⟨"M::List"⟩, .unit [.var "rest" (.optional (.named ⟨"M::List"⟩)) true],
      ⟨"M"⟩, ⟨"m.spicy"⟩, none⟩
    let table : TypeTable := ⟨[(⟨"M"⟩, ⟨"m.spicy"⟩)], [pair, size, list], []⟩
    let counts := call "create_vector_type" [basic .count]
    (table.find? pair.id = some pair ∧ pair.id.qualifier.isEmpty = false) ∧
      (table.find? list.id = some list ∧ list.id.qualifier.isEmpty = false) ∧
      ofDeclaration table pair.type pair.id = .ok (withName "create_record_type" pair.id
        [recordField "left" counts false, recordField "right" counts true]) ∧
      (declared table 3 list.type list.id).runFrom [] = some (.error .selfRecursive, []) ∧
      ∃ target, Relation.ReflTransGen table.Refers list.id target ∧
        Relation.TransGen table.Refers target target := by
  intro pair size list table counts
  have isPair : table.find? pair.id = some pair := rfl
  have isSize : table.find? ⟨"M::Size"⟩ = some size := rfl
  have isList : table.find? list.id = some list := rfl
  have pairQualified : pair.id.qualifier.isEmpty = false := by decide
  have listQualified : list.id.qualifier.isEmpty = false := by decide
  have unfoldsSize : Unfolds table (.type none (.named ⟨"M::Size"⟩)) [counts] :=
    .named isSize (.vector (.base rfl))
  have isRecursive : ofDeclaration table list.type list.id = .error .selfRecursive := by
    have isRepeated : HostType.project table [list.id] none (.named list.id) =
        .error .selfRecursive := by
      rw [project_named, isList]
      rfl
    rw [ofDeclaration_of_qualified listQualified]
    show HostType.project table [list.id] (some list.id) (.unit _) = _
    rw [HostType.project, projectItems, HostType.project, isRepeated]
    rfl
  rcases declared_exact isPair pairQualified with ⟨_, isOk, _⟩
  rcases declared_exact isList listQualified with ⟨ends, _, cycle⟩
  refine ⟨⟨isPair, pairQualified⟩, ⟨isList, listQualified⟩, ?_, ?_, cycle isRecursive⟩
  · exact (isOk _).mpr (.struct (.field unfoldsSize (.field unfoldsSize .noFields)))
  · rw [ends 3 (by decide), isRecursive]

/-! ## Exported types -/

/-- The host types of exported types, which one projector projects one after another, and the
errors. -/
def exportAll (table : TypeTable) (steps : Nat) :
    List TypeInfo → StateT (List QualName) Option (List Projected × List (Located ProjectError))
  | [] => return ([], [])
  | info :: others => do
      let result ← (declared table steps info.type info.id).run
      let (projected, errors) ← exportAll table steps others
      match result with
      | .ok expr => return (⟨info.id, expr⟩ :: projected, errors)
      | .error reason =>
          return (projected, ⟨.cannotExport info.id reason, info.location⟩ :: errors)

/-- What a new projector makes of a declaration. -/
def success? (table : TypeTable) (info : TypeInfo) : Option Projected :=
  match ofDeclaration table info.type info.id with
  | .ok expr => some ⟨info.id, expr⟩
  | .error _ => none

/-- The error about a declaration for which a new projector fails. -/
def failure? (table : TypeTable) (info : TypeInfo) : Option (Located ProjectError) :=
  match ofDeclaration table info.type info.id with
  | .ok _ => none
  | .error reason => some ⟨.cannotExport info.id reason, info.location⟩

/-- The error about an export that names no exported type. -/
def stray (decl : ExportDecl) : Located ProjectError :=
  ⟨if decl.id.qualifier.isEmpty then .missingQualifier decl.id else .unknownExport decl.id,
    some decl.location⟩

section

variable {table : TypeTable}

theorem projectAll_eq (infos : List TypeInfo) :
    projectAll table infos =
      (infos.filterMap (success? table), infos.filterMap (failure? table)) := by
  induction infos with
  | nil => rfl
  | cons info others ih =>
      rw [projectAll, ih, List.filterMap_cons, List.filterMap_cons, success?, failure?]
      cases ofDeclaration table info.type info.id <;> rfl

/-- A projector that has been used is as good as a new one. -/
theorem run_exportAll {steps : Nat} (enough : table.types.length ≤ steps)
    (infos : List TypeInfo) :
    (exportAll table steps infos).run [] = some (projectAll table infos, []) := by
  induction infos with
  | nil => rfl
  | cons info others ih =>
      have answers : (declared table steps info.type info.id).run.run [] = _ :=
        answers_declared enough info.type info.id
      rw [exportAll, StateT.run_bind, answers]
      simp only [Option.bind_eq_bind, Option.bind_some, StateT.run_bind, ih, projectAll]
      cases ofDeclaration table info.type info.id <;> rfl

end

/-- Projects the exported types and reports the exports that name none of them. -/
def exportTypes (table : TypeTable) (steps : Nat) (exported : List TypeInfo)
    (exports : List ExportDecl) :
    StateT (List QualName) Option (List Projected × List (Located ProjectError)) := do
  let (projected, errors) ← exportAll table steps exported
  return (projected, errors ++ strayExports exported exports)

theorem strayExports_eq (exported : List TypeInfo) (exports : List ExportDecl) :
    strayExports exported exports =
      (exports.filter fun decl => decl.id ∉ exported.map TypeInfo.id).map stray := by
  have sameTest : ∀ decl : ExportDecl, (!exported.any fun info => info.id == decl.id) =
      decide (decl.id ∉ exported.map TypeInfo.id) := by
    intro decl
    rw [Bool.eq_iff_iff]
    simp
  rw [strayExports]
  simp only [sameTest]
  rfl

/-- Exported types do not affect each other.  A projector leaves the names in progress as it
has found them, whether it succeeds or fails.  So each exported type gets what a new projector
gives: those that are projected are listed in order, and so are the errors of the others, with
their locations; behind these are the errors of the exports that name no exported type. -/
theorem exportTypes_independent (table : TypeTable) (exported : List TypeInfo)
    (exports : List ExportDecl) {steps : Nat} (enough : table.types.length ≤ steps) :
    (∀ names type id, ∃ result,
      (project table steps type id).runFrom names = some (result, names)) ∧
    (∀ info : TypeInfo, (declared table steps info.type info.id).runFrom [] =
      some (ofDeclaration table info.type info.id, [])) ∧
    (exportTypes table steps exported exports).run [] =
      some (projectExports table exported exports, []) ∧
    projectExports table exported exports =
      (exported.filterMap (success? table),
        exported.filterMap (failure? table) ++
          (exports.filter fun decl => decl.id ∉ exported.map TypeInfo.id).map stray) := by
  refine ⟨exists_answers_project enough, fun info => answers_declared enough info.type info.id,
    ?_, ?_⟩
  · rw [exportTypes, StateT.run_bind, run_exportAll enough]
    rfl
  · rw [projectExports, projectAll_eq, strayExports_eq]

/-- Two types that come back to the first of them do not keep the third from being
exported. -/
theorem exportTypes_independent_failures :
    let list : TypeInfo := ⟨⟨"M::List"⟩, .vector (.named ⟨"M::List"⟩), ⟨"M"⟩, ⟨"m.spicy"⟩, none⟩
    let user : TypeInfo := ⟨⟨"M::User"⟩, .struct [⟨"all", .named ⟨"M::List"⟩, false⟩], ⟨"M"⟩,
      ⟨"m.spicy"⟩, some ⟨⟨"m.spicy"⟩, 7⟩⟩
    let size : TypeInfo := ⟨⟨"M::Size"⟩, .base .unsignedInteger, ⟨"M"⟩, ⟨"m.spicy"⟩, none⟩
    let table : TypeTable := ⟨[(⟨"M"⟩, ⟨"m.spicy"⟩)], [list, user, size], []⟩
    table.types.length ≤ 3 ∧
      (exportTypes table 3 [list, user, size]
        [⟨⟨"M::Size"⟩, ⟨⟨"a.evt"⟩, 1⟩⟩, ⟨⟨"M::Age"⟩, ⟨⟨"a.evt"⟩, 2⟩⟩]).run [] =
        some (([⟨size.id, basic .count⟩],
          [⟨.cannotExport list.id .selfRecursive, none⟩,
            ⟨.cannotExport user.id .selfRecursive, some ⟨⟨"m.spicy"⟩, 7⟩⟩,
            ⟨.unknownExport ⟨"M::Age"⟩, some ⟨⟨"a.evt"⟩, 2⟩⟩]), []) := by
  intro list user size table
  have isList : table.find? list.id = some list := rfl
  have listQualified : list.id.qualifier.isEmpty = false := by decide
  have userQualified : user.id.qualifier.isEmpty = false := by decide
  have sizeQualified : size.id.qualifier.isEmpty = false := by decide
  have comesBack : ∀ names id, HostType.project table (list.id :: names) id list.type =
      .error .selfRecursive := by
    intro names id
    show HostType.project table (list.id :: names) id (.vector (.named list.id)) = _
    rw [HostType.project, project_named]
    simp only [isList, if_pos List.mem_cons_self]
    rfl
  have listFails : ofDeclaration table list.type list.id = .error .selfRecursive := by
    rw [ofDeclaration_of_qualified listQualified]
    exact comesBack [] (some list.id)
  have userFails : ofDeclaration table user.type user.id = .error .selfRecursive := by
    have isNew : list.id ∉ [user.id] := by decide
    rw [ofDeclaration_of_qualified userQualified]
    show HostType.project table [user.id] (some user.id)
      (.struct [⟨"all", .named list.id, false⟩]) = _
    rw [HostType.project, projectFields, project_named]
    simp only [isList, if_neg isNew, comesBack]
    rfl
  have sizeProjects : ofDeclaration table size.type size.id = .ok (basic .count) := by
    rw [ofDeclaration_of_qualified sizeQualified]
    show HostType.project table [size.id] (some size.id) (.base .unsignedInteger) = _
    rw [HostType.project]
    rfl
  rcases exportTypes_independent table [list, user, size]
    [⟨⟨"M::Size"⟩, ⟨⟨"a.evt"⟩, 1⟩⟩, ⟨⟨"M::Age"⟩, ⟨⟨"a.evt"⟩, 2⟩⟩] (Nat.le_refl 3) with
    ⟨_, _, isShared, isExports⟩
  refine ⟨Nat.le_refl 3, ?_⟩
  rw [isShared, isExports]
  simp only [List.filterMap_cons, success?, failure?, listFails, userFails, sizeProjects]
  rfl

end AnalyzerGlue.Projector
