import AnalyzerGlue.Proofs.Compiler.Settling

/-!
# Compiling again

A compilation leaves its marks, also if it fails: the host has taken note of exports, its
modules have been adopted, events have been filled in and modules have recorded sources and
output.  A second compilation starts from all this and finds each step done.  It comes to the
same result, changes neither the declarations nor what the host knows, and hands over the
same modules once more.
-/

namespace AnalyzerGlue

/-! ## Exports -/

theorem TypeTable.markExported_eq_self {table : TypeTable} {id : QualName}
    (marked : (table.find? id).isSome = true → id ∈ table.exported) :
    table.markExported id = table :=
  if_neg fun isNew => isNew.2 (marked isNew.1)

/-- Exports of which the host has taken note are known to it. -/
theorem Host.marked_foldl_noteExport (host : Host) (exports : List ExportDecl) :
    (exports.foldl noteExport host).marked exports = (exports.foldl noteExport host).table := by
  by_cases cooperative : host.cooperative = true
  · rcases exists_foldl_noteExport_eq cooperative exports with ⟨names, isNoted, marks⟩
    rw [isNoted, marked, if_pos cooperative]
    apply foldl_eq_self
    intro decl member
    apply TypeTable.markExported_eq_self
    intro declared
    exact (marks decl.id).mpr (.inr ⟨⟨decl, member, rfl⟩, declared⟩)
  · rw [foldl_noteExport_eq, marked, if_neg cooperative]

/-! ## Modules -/

/-- Modules that are registered are not added. -/
theorem Store.keepModules_eq_self {modules added : List GrammarModule}
    (registered : ∀ grammar ∈ added, grammar.id ∈ modules.map GrammarModule.id) :
    keepModules modules added = modules := by
  apply foldl_eq_self
  intro grammar member
  rw [keepModule_eq, if_pos (registered grammar member)]

namespace Compiler

/-- Generating hook modules changes the output of modules only. -/
theorem generateHooks_grammars_eq (debug : Bool) (store : Store) (grammars : List GrammarModule) :
    (generateHooks debug store grammars).1 = grammars.map fun grammar =>
      { grammar with
        output := if grammar.sources.isEmpty then grammar.output
          else some (HookModule.generate debug store grammar).1 } := by
  induction grammars with
  | nil => rfl
  | cons first others ih =>
      rw [generateHooks, List.map_cons, ← ih]
      by_cases noSources : first.sources.isEmpty = true
      · simp only [if_pos noSources]
      · simp only [if_neg noSources]

/-- The modules and their output do not matter for the hook modules. -/
theorem generateHooks_generateHooks (debug : Bool) (store : Store) (modules : List GrammarModule)
    (grammars : List GrammarModule) :
    generateHooks debug (store.withModules modules) (generateHooks debug store grammars).1 =
      generateHooks debug store grammars := by
  induction grammars with
  | nil => rfl
  | cons first others ih =>
      rw [generateHooks]
      by_cases noSources : first.sources.isEmpty = true
      · simp only [if_pos noSources]
        rw [generateHooks, ih]
        simp only [if_pos noSources]
      · have sameHook : HookModule.generate debug (store.withModules modules)
            { first with output := some (HookModule.generate debug store first).1 } =
              HookModule.generate debug store first := rfl
        simp only [if_neg noSources]
        rw [generateHooks, ih]
        simp only [if_neg noSources, sameHook]

/-! ## The parts of a second compilation -/

section Again

variable (compiler : Compiler) (host : Host)

theorem exports_compiled : (compiler.compiled host).store.exports = compiler.store.exports := by
  simp only [compiled, resolution_eq, adopted_eq]
  rfl

theorem moduleIds_compiled :
    (compiler.compiled host).store.moduleIds = (compiler.adopted host).moduleIds := by
  simp only [compiled, generation, resolution_eq, generateHooks_grammars_eq, Store.moduleIds,
    List.map_map]
  refine List.map_congr_left fun grammar _ => ?_
  exact grammar.id_attach _ _

variable (units : List OutputUnit)

/-- The host behind a compilation, with whatever has been handed over. -/
def after : Host :=
  { compiler.noted host with units := units }

theorem noted_compiled :
    (compiler.compiled host).noted (compiler.after host units) = compiler.after host units := by
  have known : (compiler.after host units).marked compiler.store.exports =
      (compiler.after host units).table := host.marked_foldl_noteExport compiler.store.exports
  rw [noted, exports_compiled, Host.foldl_noteExport_eq, known]

theorem adopted_compiled :
    (compiler.compiled host).adopted (compiler.after host units) =
      (compiler.compiled host).store := by
  have registered : ∀ grammar ∈ (compiler.noted host).modules.map fun entry =>
      GrammarModule.declare entry.1 entry.2,
      grammar.id ∈ (compiler.compiled host).store.modules.map GrammarModule.id := by
    intro grammar member
    have isAdopted : grammar.id ∈ (compiler.adopted host).moduleIds := by
      rw [adopted_eq]
      exact Store.mem_map_id_keepModules.mpr (.inr (List.mem_map_of_mem member))
    rw [← moduleIds_compiled] at isAdopted
    exact isAdopted
  have sameModules : (compiler.after host units).modules = (compiler.noted host).modules := rfl
  rw [adopted_eq, noted_compiled, sameModules, Store.keepModules_eq_self registered]
  rfl

theorem resolution_compiled :
    (compiler.compiled host).resolution (compiler.after host units) =
      ((compiler.compiled host).store, (compiler.resolution host).2) := by
  have sameTable : (compiler.after host units).table = (compiler.noted host).table := rfl
  have isEvents : (compiler.compiled host).store.events =
      (compiler.adopted host).events.map fun event =>
        event.settled (compiler.noted host).table (compiler.adopted host).moduleIds := by
    simp only [compiled, resolution_eq]
  have isModules : (compiler.compiled host).store.modules =
      (generateHooks (compiler.debugs (compiler.noted host)) (compiler.resolution host).1
        (compiler.resolution host).1.modules).1 := rfl
  rw [resolution_eq, adopted_compiled, noted_compiled, sameTable, moduleIds_compiled]
  have sameEvents : ((compiler.compiled host).store.events.map fun event =>
      event.settled (compiler.noted host).table (compiler.adopted host).moduleIds) =
        (compiler.compiled host).store.events := by
    rw [isEvents, List.map_map]
    exact List.map_congr_left fun event _ => event.settled_settled _ _
  have sameFaults : ((compiler.compiled host).store.events.flatMap fun event =>
      event.faults (compiler.noted host).table (compiler.adopted host).moduleIds) =
        (compiler.resolution host).2 := by
    rw [isEvents, List.flatMap_map, resolution_eq]
    simp only [Event.faults_settled]
  have sameModules : ((compiler.compiled host).store.modules.map fun grammar =>
      grammar.attach (compiler.noted host).table (compiler.compiled host).store.events) =
        (compiler.compiled host).store.modules := by
    rw [isEvents, isModules, generateHooks_grammars_eq, resolution_eq]
    simp only [List.map_map]
    refine List.map_congr_left fun grammar _ => ?_
    exact GrammarModule.attach_settled_attach _ _ _
  rw [sameEvents, sameFaults, sameModules]

theorem projection_compiled :
    (compiler.compiled host).projection (compiler.after host units) =
      compiler.projection host := by
  have sameExports : (compiler.resolution host).1.exports =
      (compiler.compiled host).store.exports := rfl
  rw [projection, projection, noted_compiled, resolution_compiled, sameExports]
  rfl

theorem generation_compiled :
    (compiler.compiled host).generation (compiler.after host units) =
      compiler.generation host := by
  rw [generation, noted_compiled, resolution_compiled]
  exact generateHooks_generateHooks _ _ _ _

theorem errors_compiled :
    (compiler.compiled host).errors (compiler.after host units) = compiler.errors host := by
  have sameAnalyzers : (compiler.compiled host).store.checkAnalyzers (compiler.noted host).table =
      (compiler.adopted host).checkAnalyzers (compiler.noted host).table := by
    simp only [compiled, resolution_eq]
    rfl
  rw [errors, adopted_compiled, noted_compiled, resolution_compiled, projection_compiled,
    generation_compiled, errors, ← sameAnalyzers]
  rfl

theorem output_compiled :
    (compiler.compiled host).output (compiler.after host units) = compiler.output host := by
  rw [output, resolution_compiled, projection_compiled, generation_compiled]
  rfl

theorem compiled_compiled :
    (compiler.compiled host).compiled (compiler.after host units) = compiler.compiled host := by
  rw [compiled, resolution_compiled, generation_compiled]
  rfl

end Again

/-- The modules that a compilation hands over. -/
def handedOver : Except (List GlueError) Output → List OutputUnit
  | .ok output => output.units
  | .error _ => []

theorem units_noted (compiler : Compiler) (host : Host) :
    (compiler.noted host).units = host.units := by
  rw [noted, Host.foldl_noteExport_eq]

/-- Compiling again changes nothing.  It yields the same output or the same errors, and
leaves the declarations and the table as they are; the modules that have been handed over
are handed over once more. -/
theorem compile_again (compiler : Compiler) (host : Host) :
    let once := compiler.compile host
    let twice := once.2.1.compile once.2.2
    once.2.2.units = host.units ++ handedOver once.1 ∧
      twice = (once.1, once.2.1,
        { once.2.2 with units := once.2.2.units ++ handedOver once.1 }) := by
  intro once twice
  have again := fun units => compile_eq (compiler.compiled host) (compiler.after host units)
  simp only [errors_compiled, output_compiled, compiled_compiled, noted_compiled] at again
  by_cases noErrors : (compiler.errors host).isEmpty = true
  · have isOnce : once = (.ok (compiler.output host), compiler.compiled host,
        compiler.after host ((compiler.noted host).units ++ (compiler.output host).units)) := by
      simp only [once, compile_eq, if_pos noErrors]
      rfl
    simp only [twice, isOnce]
    constructor
    · rw [after, units_noted]
      rfl
    · rw [again, if_pos noErrors]
      rfl
  · have isOnce : once = (.error (compiler.errors host), compiler.compiled host,
        compiler.after host (compiler.noted host).units) := by
      simp only [once, compile_eq, if_neg noErrors]
      rfl
    simp only [twice, isOnce, handedOver, List.append_nil]
    constructor
    · rw [after, units_noted]
    · rw [again, if_neg noErrors]

end Compiler

end AnalyzerGlue
