import AnalyzerGlue.Proofs.Compiler.Settling

/-!
# Order and repetition of exports

Exports reach the output by the names that the host has marked.  Nothing asks in which order
they were marked, and projecting one type does not depend on which others are exported.  So
compilers whose exports name the same types, in whatever order and however often, yield the
same output or none at all.
-/

namespace AnalyzerGlue

/-! ## Tables -/

/-- The exported types are those whose names are exported. -/
theorem TypeTable.exportedTypes_exporting_congr (table : TypeTable) {names others : List QualName}
    (same : ∀ name, name ∈ names ↔ name ∈ others) :
    (table.exporting names).exportedTypes = (table.exporting others).exportedTypes := by
  apply List.filter_congr
  intro info _
  exact decide_eq_decide.mpr (same info.id)

/-- The names that are exported once a host has taken note of exports. -/
theorem Host.exists_marked_eq (host : Host) (exports : List ExportDecl) :
    ∃ names, host.marked exports = host.table.exporting names ∧
      ∀ name, name ∈ names ↔
        name ∈ host.table.exported ∨
          (host.cooperative = true ∧ (∃ decl ∈ exports, decl.id = name) ∧
            (host.table.find? name).isSome) := by
  by_cases cooperative : host.cooperative = true
  · rcases exists_foldl_noteExport_eq cooperative exports with ⟨names, isNoted, marks⟩
    rw [foldl_noteExport_eq] at isNoted
    refine ⟨names, congrArg Host.table isNoted, fun name => ?_⟩
    rw [marks]
    simp only [cooperative, true_and]
  · refine ⟨host.table.exported, if_neg cooperative, fun name => ?_⟩
    simp only [cooperative, false_and, or_false, Bool.false_eq_true]

namespace HostType

theorem projectAll_exporting (table : TypeTable) (names : List QualName) (infos : List TypeInfo) :
    projectAll (table.exporting names) infos = projectAll table infos := by
  induction infos with
  | nil => rfl
  | cons info infos ih => rw [projectAll, projectAll, ih, ofDeclaration_exporting]

end HostType

/-! ## Compilers -/

namespace Compiler

/-- The compilers have the same options and declarations but for their exports, which name
the same types. -/
structure SameButExports (left right : Compiler) : Prop where
  options : right.options = left.options
  declarations : right.store = { left.store with exports := right.store.exports }
  names : ∀ name, (∃ decl ∈ left.store.exports, decl.id = name) ↔
    ∃ decl ∈ right.store.exports, decl.id = name

/-- Hook modules are generated from the events and imports of a store only. -/
theorem generateHooks_congr {debug : Bool} {store other : Store}
    (sameEvents : other.events = store.events) (sameImports : other.imports = store.imports)
    (grammars : List GrammarModule) :
    generateHooks debug other grammars = generateHooks debug store grammars := by
  induction grammars with
  | nil => rfl
  | cons first others ih =>
      have sameHook : HookModule.generate debug other first =
          HookModule.generate debug store first := by
        rw [HookModule.generate, HookModule.generate, sameEvents, sameImports]
      rw [generateHooks, generateHooks, ih, sameHook]

section

variable (compiler : Compiler) (host : Host)

/-- Taking note of exports changes which names are exported and nothing else. -/
theorem exists_names_noted :
    ∃ names, compiler.noted host = { host with table := host.table.exporting names } ∧
      ∀ name, name ∈ names ↔
        name ∈ host.table.exported ∨
          (host.cooperative = true ∧ (∃ decl ∈ compiler.store.exports, decl.id = name) ∧
            (host.table.find? name).isSome) := by
  rcases host.exists_marked_eq compiler.store.exports with ⟨names, isMarked, marks⟩
  refine ⟨names, ?_, marks⟩
  rw [noted, Host.foldl_noteExport_eq, isMarked]

/-- Modules are adopted and events resolved as if there were no exports. -/
theorem adopted_eq_of_host :
    compiler.adopted host = compiler.store.withModules
      (Store.keepModules compiler.store.modules
        (host.modules.map fun entry => .declare entry.1 entry.2)) := by
  rcases compiler.exists_names_noted host with ⟨names, isNoted, _⟩
  rw [adopted_eq, isNoted]
  rfl

theorem resolution_eq_of_host :
    compiler.resolution host = (compiler.adopted host).resolve host.table := by
  rcases compiler.exists_names_noted host with ⟨names, isNoted, _⟩
  rw [resolution, isNoted, Store.resolve_eq, Store.resolve_eq]
  rfl

theorem projectAll_noted (infos : List TypeInfo) :
    HostType.projectAll (compiler.noted host).table infos =
      HostType.projectAll host.table infos := by
  rcases compiler.exists_names_noted host with ⟨names, isNoted, _⟩
  rw [isNoted, HostType.projectAll_exporting]

theorem exports_resolution : (compiler.resolution host).1.exports = compiler.store.exports := by
  rw [resolution_eq, adopted_eq]
  rfl

end

namespace SameButExports

variable {left right : Compiler} (same : SameButExports left right) (host : Host)

include same

theorem adopted :
    right.adopted host = { left.adopted host with exports := right.store.exports } := by
  rw [adopted_eq_of_host, adopted_eq_of_host, same.declarations]
  rfl

theorem resolution :
    right.resolution host =
      ({ (left.resolution host).1 with exports := right.store.exports },
        (left.resolution host).2) := by
  rw [resolution_eq_of_host, resolution_eq_of_host, same.adopted, Store.resolve_eq,
    Store.resolve_eq]
  rfl

theorem checkAnalyzers :
    (right.adopted host).checkAnalyzers (right.noted host).table =
      (left.adopted host).checkAnalyzers (left.noted host).table := by
  rcases left.exists_names_noted host with ⟨names, isNoted, _⟩
  rcases right.exists_names_noted host with ⟨others, isOther, _⟩
  rw [same.adopted, isNoted, isOther]
  rfl

theorem generation : right.generation host = left.generation host := by
  have sameDebugs : right.debugs (right.noted host) = left.debugs (left.noted host) := by
    rcases left.exists_names_noted host with ⟨names, isNoted, _⟩
    rcases right.exists_names_noted host with ⟨others, isOther, _⟩
    rw [debugs, debugs, isNoted, isOther, same.options]
  let store := (left.resolution host).1
  rw [Compiler.generation, same.resolution, sameDebugs]
  exact @generateHooks_congr _ store { store with exports := right.store.exports } rfl rfl
    store.modules

/-- The same types are exported. -/
theorem exportedTypes :
    (right.noted host).table.exportedTypes = (left.noted host).table.exportedTypes := by
  rcases left.exists_names_noted host with ⟨names, isNoted, marks⟩
  rcases right.exists_names_noted host with ⟨others, isOther, marksOther⟩
  rw [isNoted, isOther]
  apply TypeTable.exportedTypes_exporting_congr
  intro name
  rw [marks, marksOther, same.names]

theorem projection : (right.projection host).1 = (left.projection host).1 := by
  rw [Compiler.projection, Compiler.projection, same.exportedTypes, HostType.projectExports,
    HostType.projectExports, projectAll_noted, projectAll_noted]

/-- The errors may be about other statements, but there are some for both or for none. -/
theorem projection_errors_eq_nil_iff :
    (right.projection host).2 = [] ↔ (left.projection host).2 = [] := by
  have sameStray : ∀ infos : List TypeInfo,
      HostType.strayExports infos right.store.exports = [] ↔
        HostType.strayExports infos left.store.exports = [] := by
    intro infos
    rw [HostType.strayExports_eq_nil_iff, HostType.strayExports_eq_nil_iff]
    constructor
    · intro known decl member
      rcases (same.names decl.id).mp ⟨decl, member, rfl⟩ with ⟨other, isOther, sameId⟩
      rw [← sameId]
      exact known other isOther
    · intro known decl member
      rcases (same.names decl.id).mpr ⟨decl, member, rfl⟩ with ⟨other, isOther, sameId⟩
      rw [← sameId]
      exact known other isOther
  rw [Compiler.projection, Compiler.projection, same.exportedTypes, exports_resolution,
    exports_resolution, HostType.projectExports, HostType.projectExports, projectAll_noted,
    projectAll_noted, List.append_eq_nil_iff, List.append_eq_nil_iff, sameStray]

theorem errors_eq_nil_iff : right.errors host = [] ↔ left.errors host = [] := by
  rw [errors, errors, same.checkAnalyzers, same.resolution, same.generation]
  simp only [List.append_eq_nil_iff, List.map_eq_nil_iff, same.projection_errors_eq_nil_iff]

theorem output : right.output host = left.output host := by
  rw [Compiler.output, Compiler.output, same.projection, same.generation, same.resolution,
    same.options]
  rfl

end SameButExports

/-- Order, repetition and locations of exports do not matter: if the exports of two
compilers name the same types and all else is the same, both compilations yield the same
output or neither yields one. -/
theorem compile_sameButExports {left right : Compiler} (same : SameButExports left right)
    (host : Host) (output : Output) :
    (left.compile host).1 = .ok output ↔ (right.compile host).1 = .ok output := by
  have sameErrors := same.errors_eq_nil_iff host
  rw [compile_eq, compile_eq, same.output]
  by_cases noErrors : left.errors host = []
  · rw [noErrors, sameErrors.mpr noErrors]
    rfl
  · have otherErrors : right.errors host ≠ [] := fun isNil => noErrors (sameErrors.mp isNil)
    simp [noErrors, otherErrors]

/-- Two exports in one order, and in the other with one of them repeated. -/
theorem compile_sameButExports_repeated :
    let table : TypeTable :=
      ⟨[(⟨"M"⟩, ⟨"m.spicy"⟩)],
        [⟨⟨"M::U"⟩, .unit [], ⟨"M"⟩, ⟨"m.spicy"⟩, none⟩,
          ⟨⟨"M::V"⟩, .unit [], ⟨"M"⟩, ⟨"m.spicy"⟩, none⟩], []⟩
    let host := Host.start table false true
    let compiler (exports : List ExportDecl) : Compiler := { start Options.usual with
      store := { Store.empty with exports := exports } }
    let left := compiler [⟨⟨"M::U"⟩, ⟨⟨"a.evt"⟩, 1⟩⟩, ⟨⟨"M::V"⟩, ⟨⟨"a.evt"⟩, 2⟩⟩]
    let right := compiler
      [⟨⟨"M::V"⟩, ⟨⟨"b.evt"⟩, 1⟩⟩, ⟨⟨"M::U"⟩, ⟨⟨"b.evt"⟩, 2⟩⟩, ⟨⟨"M::V"⟩, ⟨⟨"a.evt"⟩, 3⟩⟩]
    SameButExports left right ∧
      ∃ output, (left.compile host).1 = .ok output ∧ (right.compile host).1 = .ok output := by
  intro table host compiler left right
  have same : SameButExports left right := by
    refine ⟨rfl, rfl, fun name => ?_⟩
    simp only [left, right, compiler, List.mem_cons, List.not_mem_nil, or_false,
      exists_eq_or_imp, exists_eq_left]
    tauto
  have accepted : left.IsAcceptable table := by
    refine ⟨?_, ?_, ?_, ?_, ?_⟩
    · simp [left, compiler, Store.analyzerUnits, Store.empty]
    · simp [left, compiler, Store.empty]
    · intro info member _
      rcases List.mem_cons.mp member with rfl | isLast
      · exact ⟨by decide, _, HostType.ofType_unit_nil table _⟩
      · cases List.mem_singleton.mp isLast
        exact ⟨by decide, _, HostType.ofType_unit_nil table _⟩
    · simp [left, compiler, table]
    · simp [left, compiler, Store.empty]
  have noErrors : left.errors host = [] := (Compiler.errors_eq_nil_iff rfl).mpr accepted
  have isOutput : (left.compile host).1 = .ok (left.output host) := by
    rw [compile_eq, noErrors]
    rfl
  exact ⟨same, left.output host, isOutput,
    (compile_sameButExports same host (left.output host)).mp isOutput⟩

end Compiler

end AnalyzerGlue
