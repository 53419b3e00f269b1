import AnalyzerGlue.Compiler

/-!
# Exports and the types they name

Before anything is looked up, the host takes note of each export statement.  This
changes which types are exported and nothing else: every look-up and every projection
gives what it gave before.  The exported types then are those that were marked already
and those that a statement names, and they are without errors exactly if each of them
has a qualifier and projects, and each statement names a declared type.
-/

namespace AnalyzerGlue

/-- The table with other names exported. -/
def TypeTable.exporting (table : TypeTable) (names : List QualName) : TypeTable :=
  { table with exported := names }

theorem TypeTable.find?_exporting (table : TypeTable) (names : List QualName) (id : QualName) :
    (table.exporting names).find? id = table.find? id :=
  rfl

/-- A name is found exactly if it is declared. -/
theorem TypeTable.isSome_find?_iff {table : TypeTable} {id : QualName} :
    (table.find? id).isSome = true ↔ ∃ info ∈ table.types, info.id = id := by
  simp [TypeTable.find?, findKey?]

/-! ## Taking note of exports -/

theorem TypeTable.exists_markExported_eq (table : TypeTable) (id : QualName) :
    ∃ names, table.markExported id = table.exporting names ∧
      ∀ name, name ∈ names ↔
        name ∈ table.exported ∨ (name = id ∧ (table.find? name).isSome) := by
  unfold markExported
  split
  · rename_i added
    refine ⟨table.exported ++ [id], rfl, fun name => ?_⟩
    rw [List.mem_append, List.mem_singleton]
    constructor
    · rintro (old | rfl)
      · exact .inl old
      · exact .inr ⟨rfl, added.1⟩
    · rintro (old | ⟨rfl, _⟩)
      · exact .inl old
      · exact .inr rfl
  · rename_i kept
    refine ⟨table.exported, rfl, fun name => ⟨.inl, ?_⟩⟩
    rintro (old | ⟨rfl, declared⟩)
    · exact old
    · by_cases old : name ∈ table.exported
      · exact old
      · exact absurd ⟨declared, old⟩ kept

/-- The table of a host that has taken note of exports. -/
def Host.marked (host : Host) (exports : List ExportDecl) : TypeTable :=
  if host.cooperative then exports.foldl (fun table decl => table.markExported decl.id) host.table
  else host.table

/-- Taking note of exports changes the table only, and nothing else of the host matters for
it but whether it takes note at all. -/
theorem Host.foldl_noteExport_eq (host : Host) (exports : List ExportDecl) :
    exports.foldl noteExport host = { host with table := host.marked exports } := by
  induction exports generalizing host with
  | nil => simp [marked]
  | cons decl exports ih =>
      rw [List.foldl_cons, ih]
      by_cases cooperative : host.cooperative = true
      · simp [noteExport, marked, cooperative]
      · simp [noteExport, marked, cooperative]

/-- Taking note of exports adds their names to the exported ones, if they are
declared. -/
theorem Host.exists_foldl_noteExport_eq {host : Host} (cooperative : host.cooperative = true)
    (exports : List ExportDecl) :
    ∃ names, exports.foldl noteExport host = { host with table := host.table.exporting names } ∧
      ∀ name, name ∈ names ↔
        name ∈ host.table.exported ∨
          ((∃ decl ∈ exports, decl.id = name) ∧ (host.table.find? name).isSome) := by
  induction exports generalizing host with
  | nil => exact ⟨host.table.exported, rfl, fun name => by simp⟩
  | cons decl exports ih =>
      rcases host.table.exists_markExported_eq decl.id with ⟨marked, isMarked, marksName⟩
      have noted : host.noteExport decl =
          { host with table := host.table.exporting marked } := by
        rw [noteExport, if_pos cooperative, isMarked]
      rcases @ih { host with table := host.table.exporting marked } cooperative with
        ⟨names, isNoted, notesName⟩
      refine ⟨names, ?_, fun name => ?_⟩
      · rw [List.foldl_cons, noted, isNoted]
        rfl
      · have sameFind : (host.table.exporting marked).find? name = host.table.find? name := rfl
        have isOld : name ∈ (host.table.exporting marked).exported ↔ _ := marksName name
        simp only [notesName, isOld, sameFind, List.mem_cons, exists_eq_or_imp, @eq_comm _ name]
        rw [or_assoc, or_and_right]

/-! ## Projection -/

namespace HostType

/-- A reference is projected as the declaration that it stands for. -/
theorem project_named (table : TypeTable) (inProgress : List QualName) (id : Option QualName)
    (reference : QualName) :
    project table inProgress id (.named reference) =
      match table.find? reference with
      | none => .error (.lookup (.unknown reference))
      | some info =>
          if info.id ∈ inProgress then .error .selfRecursive
          else project table (info.id :: inProgress) (some info.id) info.type := by
  rw [project]
  split
  · rename_i absent
    rw [absent]
  · rename_i info found
    simp [found]

/-- Projection does not ask which types are exported. -/
theorem project_exporting (table : TypeTable) (names : List QualName) :
    (∀ inProgress id type,
      project (table.exporting names) inProgress id type = project table inProgress id type) ∧
    (∀ inProgress items,
      projectItems (table.exporting names) inProgress items =
        projectItems table inProgress items) ∧
    (∀ inProgress elements,
      projectElements (table.exporting names) inProgress elements =
        projectElements table inProgress elements) ∧
    (∀ inProgress fields,
      projectFields (table.exporting names) inProgress fields =
        projectFields table inProgress fields) := by
  apply project.mutual_induct table
  -- Only references look into the table.
  case case11 =>
    intro inProgress id reference absent
    rw [project_named, project_named, table.find?_exporting]
    simp only [absent]
  case case12 =>
    intro inProgress id reference info found recursive
    rw [project_named, project_named, table.find?_exporting]
    simp only [found, if_pos recursive]
  case case13 =>
    intro inProgress id reference info found fresh _ same
    rw [project_named, project_named, table.find?_exporting]
    simp only [found, if_neg fresh, same]
  all_goals
    intros
    simp_all [project, projectItems, projectElements, projectFields]

/-- A unit without items becomes a record without fields. -/
theorem ofType_unit_nil (table : TypeTable) (id : QualName) :
    ofType table (.unit []) (some id) = .ok (withName "create_record_type" id []) := by
  simp [ofType, project, nameOr, projectItems, pure, Except.pure, bind, Except.bind]

theorem ofDeclaration_exporting (table : TypeTable) (names : List QualName) (type : GrammarType)
    (id : QualName) :
    ofDeclaration (table.exporting names) type id = ofDeclaration table type id := by
  simp only [ofDeclaration, ofType, (project_exporting table names).1]

theorem ofDeclaration_eq_ok_iff {table : TypeTable} {type : GrammarType} {id : QualName}
    {expr : Expr} :
    ofDeclaration table type id = .ok expr ↔
      id.qualifier.isEmpty = false ∧ ofType table type (some id) = .ok expr := by
  unfold ofDeclaration
  cases id.qualifier.isEmpty <;> simp

/-! ## Errors about exports -/

/-- Declarations project without errors exactly if each of them does. -/
theorem projectAll_snd_eq_nil_iff {table : TypeTable} {infos : List TypeInfo} :
    (projectAll table infos).2 = [] ↔
      ∀ info ∈ infos, ∃ expr, ofDeclaration table info.type info.id = .ok expr := by
  induction infos with
  | nil => simp [projectAll]
  | cons info infos ih =>
      rw [List.forall_mem_cons, ← ih, projectAll]
      cases ofDeclaration table info.type info.id with
      | ok expr => simp
      | error reason => simp

/-- No export is stray exactly if each names an exported type. -/
theorem strayExports_eq_nil_iff {exported : List TypeInfo} {exports : List ExportDecl} :
    strayExports exported exports = [] ↔
      ∀ decl ∈ exports, ∃ info ∈ exported, info.id = decl.id := by
  simp [strayExports]

/-- The exported types are without errors exactly if each type that is marked or named
has a qualifier and projects, and each statement names a declared type. -/
theorem projectExports_snd_eq_nil_iff {table : TypeTable} {names : List QualName}
    {exports : List ExportDecl}
    (marks : ∀ name, name ∈ names ↔ name ∈ table.exported ∨
      ((∃ decl ∈ exports, decl.id = name) ∧ (table.find? name).isSome)) :
    (projectExports (table.exporting names) (table.exporting names).exportedTypes exports).2 = [] ↔
      (∀ info ∈ table.types, (info.id ∈ table.exported ∨ ∃ decl ∈ exports, decl.id = info.id) →
        info.id.qualifier.isEmpty = false ∧
          ∃ expr, ofType table info.type (some info.id) = .ok expr) ∧
      ∀ decl ∈ exports, ∃ info ∈ table.types, info.id = decl.id := by
  have isExported : ∀ info, info ∈ (table.exporting names).exportedTypes ↔
      info ∈ table.types ∧
        (info.id ∈ table.exported ∨ ∃ decl ∈ exports, decl.id = info.id) := by
    intro info
    have isDeclared : info ∈ table.types → (table.find? info.id).isSome = true := fun declared =>
      TypeTable.isSome_find?_iff.mpr ⟨info, declared, rfl⟩
    rw [TypeTable.exportedTypes, List.mem_filter, decide_eq_true_iff]
    show info ∈ table.types ∧ info.id ∈ names ↔ _
    rw [marks]
    constructor
    · rintro ⟨declared, old | ⟨named, _⟩⟩
      · exact ⟨declared, .inl old⟩
      · exact ⟨declared, .inr named⟩
    · rintro ⟨declared, old | named⟩
      · exact ⟨declared, .inl old⟩
      · exact ⟨declared, .inr ⟨named, isDeclared declared⟩⟩
  rw [projectExports]
  simp only [List.append_eq_nil_iff]
  rw [projectAll_snd_eq_nil_iff, strayExports_eq_nil_iff]
  simp only [isExported, ofDeclaration_exporting, ofDeclaration_eq_ok_iff, exists_and_left]
  constructor
  · rintro ⟨projects, namesType⟩
    refine ⟨fun info declared exported => projects info ⟨declared, exported⟩, ?_⟩
    intro decl member
    rcases namesType decl member with ⟨info, ⟨declared, _⟩, isNamed⟩
    exact ⟨info, declared, isNamed⟩
  · rintro ⟨projects, namesType⟩
    refine ⟨fun info exported => projects info exported.1 exported.2, ?_⟩
    intro decl member
    rcases namesType decl member with ⟨info, declared, isNamed⟩
    exact ⟨info, ⟨declared, .inr ⟨decl, member, isNamed.symm⟩⟩, isNamed⟩

end HostType

end AnalyzerGlue
