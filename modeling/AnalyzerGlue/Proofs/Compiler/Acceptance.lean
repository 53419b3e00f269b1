import AnalyzerGlue.Proofs.Compiler.Exports
import AnalyzerGlue.Proofs.Compiler.Hooks

/-!
# When a compilation succeeds

The steps of a compilation collect their errors separately and go on after failures.
Still, whether a compilation succeeds can be told from the declarations and the host
alone: `IsAcceptable` lists what has to hold of them, and a compilation yields an output
exactly if it does.  Otherwise it yields errors, and the host is handed nothing.
-/

namespace AnalyzerGlue

namespace Compiler

/-- The declarations of a compiler fit together and fit the types of a table. -/
structure IsAcceptable (compiler : Compiler) (table : TypeTable) : Prop where
  /-- Every unit of an analyzer is declared. -/
  units : ∀ unit ∈ compiler.store.analyzerUnits, ∃ found, table.lookupUnit unit = .ok found
  /-- Every event refers to a unit, by its path or else by the qualifier of its path,
  whose module is registered or listed by the host. -/
  events : ∀ event ∈ compiler.store.events, ∃ info items,
    (table.lookupUnit event.path = .ok (info, items) ∨
      (∀ found, table.lookupUnit event.path ≠ .ok found) ∧
        event.path.qualifier.isEmpty = false ∧
        table.lookupUnit event.path.qualifier = .ok (info, items)) ∧
    (info.moduleId ∈ compiler.store.modules.map GrammarModule.id ∨
      info.moduleId ∈ table.modules.map Prod.fst)
  /-- Every type that is exported or named by an export projects. -/
  types : ∀ info ∈ table.types,
    (info.id ∈ table.exported ∨ ∃ decl ∈ compiler.store.exports, decl.id = info.id) →
      info.id.qualifier.isEmpty = false ∧
        ∃ expr, HostType.ofType table info.type (some info.id) = .ok expr
  /-- Every export names a declared type. -/
  exports : ∀ decl ∈ compiler.store.exports, ∃ info ∈ table.types, info.id = decl.id
  /-- Every condition and every argument can be read. -/
  texts : ∀ event ∈ compiler.store.events, event.IsExpressible

/-! ## The parts of a compilation -/

section Parts

variable (compiler : Compiler) (host : Host)

/-- The host once it has taken note of the exports. -/
def noted : Host :=
  compiler.store.exports.foldl Host.noteExport host

/-- The declarations with the modules of the host. -/
def adopted : Store :=
  (compiler.noted host).modules.foldl adoptModule compiler.store

/-- The declarations with what resolving has filled in, and its errors. -/
def resolution : Store × List GlueError :=
  (compiler.adopted host).resolve (compiler.noted host).table

/-- The host types of exported types, and their errors. -/
def projection : List HostType.Projected × List (Located ProjectError) :=
  HostType.projectExports (compiler.noted host).table (compiler.noted host).table.exportedTypes
    (compiler.resolution host).1.exports

/-- The modules with the hook modules that are generated for them, and their errors. -/
def generation : List GrammarModule × List Code.Module × List GlueError :=
  generateHooks (compiler.debugs (compiler.noted host)) (compiler.resolution host).1
    (compiler.resolution host).1.modules

/-- The errors of all steps. -/
def errors : List GlueError :=
  (compiler.adopted host).checkAnalyzers (compiler.noted host).table ++
    (compiler.resolution host).2 ++ (compiler.projection host).2.map GlueError.project ++
    (compiler.generation host).2.2

/-- The output if there are no errors. -/
def output : Output :=
  ⟨InitModule.generate compiler.options.versionSymbol compiler.options.grammarVersion
    (compiler.resolution host).1 (compiler.projection host).1, (compiler.generation host).2.1⟩

/-- The compiler behind a compilation. -/
def compiled : Compiler :=
  { compiler with
    store := { (compiler.resolution host).1 with modules := (compiler.generation host).1 } }

theorem compile_eq :
    compiler.compile host =
      if (compiler.errors host).isEmpty then
        (.ok (compiler.output host), compiler.compiled host,
          { compiler.noted host with
            units := (compiler.noted host).units ++ (compiler.output host).units })
      else (.error (compiler.errors host), compiler.compiled host, compiler.noted host) :=
  rfl

end Parts

/-! ## Steps without errors -/

section

variable {compiler : Compiler} {host : Host}

/-- The modules that are registered before anything is resolved. -/
def registered (compiler : Compiler) (table : TypeTable) : List GrammarModule :=
  Store.keepModules compiler.store.modules
    (table.modules.map fun entry => .declare entry.1 entry.2)

theorem mem_map_id_registered {table : TypeTable} {id : QualName} :
    id ∈ (compiler.registered table).map GrammarModule.id ↔
      id ∈ compiler.store.modules.map GrammarModule.id ∨ id ∈ table.modules.map Prod.fst := by
  rw [registered, Store.mem_map_id_keepModules, List.map_map]
  rfl

/-- What the host has taken note of, and what has been adopted from it. -/
theorem exists_noted_eq (cooperative : host.cooperative = true) :
    ∃ names,
      compiler.noted host = { host with table := host.table.exporting names } ∧
      compiler.adopted host = compiler.store.withModules (compiler.registered host.table) ∧
      ∀ name, name ∈ names ↔
        name ∈ host.table.exported ∨
          ((∃ decl ∈ compiler.store.exports, decl.id = name) ∧
            (host.table.find? name).isSome) := by
  rcases Host.exists_foldl_noteExport_eq cooperative compiler.store.exports with
    ⟨names, isNoted, marks⟩
  refine ⟨names, isNoted, ?_, marks⟩
  have isListed : (compiler.noted host).modules = host.table.modules := by
    rw [noted, isNoted]
    exact if_pos cooperative
  rw [adopted, isListed, foldl_adoptModule_eq, registered]

/-- The declarations of a compiler with what resolving fills in. -/
def resolvedStore (compiler : Compiler) (table : TypeTable) : Store :=
  { compiler.store with
    events := compiler.store.events.map fun event =>
      event.settled table ((compiler.registered table).map GrammarModule.id)
    modules := (compiler.registered table).map fun grammar =>
      grammar.attach table compiler.store.events }

/-- All events of the compiler refer to units of registered modules. -/
def AllPlaced (compiler : Compiler) (table : TypeTable) : Prop :=
  ∀ event ∈ compiler.store.events,
    event.IsPlaced table ((compiler.registered table).map GrammarModule.id)

theorem resolution_errors_eq_nil_iff (cooperative : host.cooperative = true) :
    (compiler.resolution host).2 = [] ↔ compiler.AllPlaced host.table := by
  rcases @exists_noted_eq compiler host cooperative with ⟨names, isNoted, isAdopted, _⟩
  rw [resolution, isNoted, isAdopted]
  exact Store.resolve_errors_eq_nil_iff

/-- Exports make no difference for what resolving yields. -/
theorem resolution_fst_eq (cooperative : host.cooperative = true) :
    (compiler.resolution host).1 = compiler.resolvedStore host.table := by
  rcases @exists_noted_eq compiler host cooperative with ⟨names, isNoted, isAdopted, _⟩
  rw [resolution, isNoted, isAdopted, Store.resolve_eq]
  rfl

theorem checkAnalyzers_adopted_eq_nil_iff (cooperative : host.cooperative = true) :
    (compiler.adopted host).checkAnalyzers (compiler.noted host).table = [] ↔
      ∀ unit ∈ compiler.store.analyzerUnits, ∃ found, host.table.lookupUnit unit = .ok found := by
  rcases @exists_noted_eq compiler host cooperative with ⟨names, isNoted, isAdopted, _⟩
  rw [isNoted, isAdopted]
  exact Store.checkAnalyzers_eq_nil_iff

theorem projection_errors_eq_nil_iff (cooperative : host.cooperative = true) :
    (compiler.projection host).2 = [] ↔
      (∀ info ∈ host.table.types,
        (info.id ∈ host.table.exported ∨ ∃ decl ∈ compiler.store.exports, decl.id = info.id) →
          info.id.qualifier.isEmpty = false ∧
            ∃ expr, HostType.ofType host.table info.type (some info.id) = .ok expr) ∧
      ∀ decl ∈ compiler.store.exports, ∃ info ∈ host.table.types, info.id = decl.id := by
  rcases @exists_noted_eq compiler host cooperative with ⟨names, isNoted, _, marks⟩
  rw [projection, resolution_fst_eq cooperative, isNoted]
  exact HostType.projectExports_snd_eq_nil_iff marks

section

variable {table : TypeTable} {ids : List QualName} {event : Event}

/-- An event that is placed attaches to the modules with the id of its unit's module. -/
theorem attaches_settled_iff {grammar : GrammarModule} (placed : event.IsPlaced table ids) :
    HookModule.attaches grammar (event.settled table ids) = true ↔
      event.moduleId? table = some grammar.id := by
  rcases placed with ⟨target, isTarget, registered⟩
  rw [Event.moduleId?_of_target isTarget, Event.settled_eq_bind isTarget registered]
  simp [HookModule.attaches, Event.bind]

/-- What is generated for an event that is placed is without errors exactly if its texts
can be read. -/
theorem exists_declsOf_settled_iff {debug : Bool} (placed : event.IsPlaced table ids) :
    (∃ decls, HookModule.declsOf debug (event.settled table ids) = .ok decls) ↔
      event.IsExpressible := by
  rcases placed with ⟨target, isTarget, registered⟩
  rw [Event.settled_eq_bind isTarget registered, HookModule.exists_declsOf_iff rfl]
  exact and_iff_right rfl

end

/-- If all events are placed, the hook modules are without errors exactly if the texts of
all events can be read: each event attaches to a module that has its source. -/
theorem generation_errors_eq_nil_iff (cooperative : host.cooperative = true)
    (placed : compiler.AllPlaced host.table) :
    (compiler.generation host).2.2 = [] ↔
      ∀ event ∈ compiler.store.events, event.IsExpressible := by
  rw [generation, resolution_fst_eq cooperative, generateHooks_errors_eq_nil_iff]
  constructor
  · intro generated event member
    have isPlaced := placed event member
    rcases isPlaced with ⟨target, isTarget, isRegistered⟩
    rcases List.mem_map.mp isRegistered with ⟨grammar, isGrammar, isId⟩
    have isModule : event.moduleId? host.table = some grammar.id := by
      rw [isId, Event.moduleId?_of_target isTarget]
    have hasSources : (grammar.attach host.table compiler.store.events).sources ≠ [] := by
      intro isNil
      exact (GrammarModule.sources_attach_eq_nil_iff.mp isNil).2 event member isModule
    have noErrors := generated _ (List.mem_map_of_mem isGrammar) hasSources
    rw [HookModule.generate_errors_eq_nil_iff] at noErrors
    refine (exists_declsOf_settled_iff (placed event member)).mp
      (noErrors _ (List.mem_map_of_mem member) ?_)
    rw [attaches_settled_iff (placed event member), isModule, GrammarModule.id_attach]
  · intro expressible grammar _ _
    rw [HookModule.generate_errors_eq_nil_iff]
    intro event member _
    rcases List.mem_map.mp member with ⟨declared, isDeclared, rfl⟩
    exact (exists_declsOf_settled_iff (placed declared isDeclared)).mpr
      (expressible declared isDeclared)

/-- The errors of all steps are none exactly if the declarations are acceptable. -/
theorem errors_eq_nil_iff (cooperative : host.cooperative = true) :
    compiler.errors host = [] ↔ compiler.IsAcceptable host.table := by
  have isPlaced : compiler.AllPlaced host.table ↔ _ :=
    forall₂_congr fun event _ => Event.isPlaced_iff
  rw [errors]
  simp only [List.append_eq_nil_iff, List.map_eq_nil_iff]
  rw [checkAnalyzers_adopted_eq_nil_iff cooperative, resolution_errors_eq_nil_iff cooperative,
    projection_errors_eq_nil_iff cooperative]
  simp only [mem_map_id_registered] at isPlaced
  constructor
  · rintro ⟨⟨⟨units, placed⟩, types, exports⟩, generated⟩
    exact ⟨units, isPlaced.mp placed, types, exports,
      (generation_errors_eq_nil_iff cooperative placed).mp generated⟩
  · rintro ⟨units, events, types, exports, texts⟩
    have placed := isPlaced.mpr events
    exact ⟨⟨⟨units, placed⟩, types, exports⟩,
      (generation_errors_eq_nil_iff cooperative placed).mpr texts⟩

end

/-- A compilation yields an output exactly if the declarations are acceptable, and then
the host is handed the init module and behind it the hook modules.  Otherwise there are
errors, and the host is handed nothing. -/
theorem compile_isOk_iff (compiler : Compiler) (host : Host)
    (cooperative : host.cooperative = true) :
    ((∃ output, (compiler.compile host).1 = .ok output) ↔ compiler.IsAcceptable host.table) ∧
    (∀ errors, (compiler.compile host).1 = .error errors →
      errors ≠ [] ∧ (compiler.compile host).2.2.units = host.units) ∧
    ∀ output, (compiler.compile host).1 = .ok output →
      (compiler.compile host).2.2.units =
        host.units ++ ⟨.hilti, output.init⟩ :: output.hooks.map (OutputUnit.mk .spicy) := by
  have sameUnits : (compiler.noted host).units = host.units := by
    rcases @exists_noted_eq compiler host cooperative with ⟨names, isNoted, _⟩
    rw [isNoted]
  rw [← errors_eq_nil_iff cooperative, compile_eq]
  cases isErrors : compiler.errors host with
  | nil =>
      refine ⟨by simp, by simp, ?_⟩
      rintro output ⟨rfl⟩
      simp [sameUnits, Output.units]
  | cons error errors =>
      refine ⟨by simp, ?_, by simp⟩
      rintro _ ⟨rfl⟩
      exact ⟨by simp, sameUnits⟩

/-- An event at a hook with a condition and two arguments is compiled together with the
export of its unit; with an unknown reserved argument instead, nothing is handed over. -/
theorem compile_isOk_iff_hook :
    let table : TypeTable :=
      ⟨[(⟨"M"⟩, ⟨"m.spicy"⟩)], [⟨⟨"M::U"⟩, .unit [], ⟨"M"⟩, ⟨"m.spicy"⟩, none⟩], []⟩
    let host := Host.start table false true
    let compiler (text : String) : Compiler := { start Options.usual with
      store := { Store.empty with
        events := [⟨⟨"M::U::x"⟩, some "c", ⟨"e"⟩, ["$conn", text], 0, ⟨⟨"a.evt"⟩, 1⟩, none, none,
          none⟩]
        exports := [⟨⟨"M::U"⟩, ⟨⟨"a.evt"⟩, 2⟩⟩] } }
    host.cooperative = true ∧
      (∃ output, ((compiler "b + 1").compile host).1 = .ok output ∧
        ((compiler "b + 1").compile host).2.2.units =
          ⟨.hilti, output.init⟩ :: output.hooks.map (OutputUnit.mk .spicy)) ∧
      ∃ errors, ((compiler "$b").compile host).1 = .error errors ∧ errors ≠ [] ∧
        ((compiler "$b").compile host).2.2.units = [] := by
  intro table host compiler
  have accepted : (compiler "b + 1").IsAcceptable table := by
    have isQualifier : (QualName.mk "M::U::x").qualifier = ⟨"M::U"⟩ := by decide
    have readCondition : Expr.parse "c" (some ⟨⟨"a.evt"⟩, 1⟩) =
        .ok (.atom (.id ⟨"c"⟩) (some ⟨⟨"a.evt"⟩, 1⟩)) := by decide +kernel
    have readArgument : Expr.parse "b + 1" (some ⟨⟨"a.evt"⟩, 1⟩) =
        .ok (.apply .sum [.atom (.id ⟨"b"⟩) (some ⟨⟨"a.evt"⟩, 1⟩),
          .atom (.int 1) (some ⟨⟨"a.evt"⟩, 1⟩)] (some ⟨⟨"a.evt"⟩, 1⟩)) := by decide +kernel
    have unreserved : "b + 1".startsWith "$" = false := by decide +kernel
    refine ⟨by simp [compiler, Store.analyzerUnits, Store.empty], ?_, ?_, ?_, ?_⟩
    · intro event member
      cases List.mem_singleton.mp member
      refine ⟨⟨⟨"M::U"⟩, .unit [], ⟨"M"⟩, ⟨"m.spicy"⟩, none⟩, [], .inr ⟨?_, ?_, ?_⟩,
        .inr (by decide)⟩
      · rintro _ ⟨⟩
      · simp only [isQualifier]
        decide
      · simp only [isQualifier]
        rfl
    · intro info member _
      cases List.mem_singleton.mp member
      exact ⟨by decide, _, HostType.ofType_unit_nil table _⟩
    · intro decl member
      cases List.mem_singleton.mp member
      exact ⟨_, List.mem_cons_self, rfl⟩
    · intro event member
      cases List.mem_singleton.mp member
      refine ⟨?_, ?_⟩
      · rintro _ ⟨⟩
        exact ⟨_, readCondition⟩
      · intro text isText
        rcases List.mem_cons.mp isText with rfl | isLast
        · exact .inl (by decide)
        · cases List.mem_singleton.mp isLast
          exact .inr ⟨unreserved, _, readArgument⟩
  have rejected : ¬ (compiler "$b").IsAcceptable table := by
    intro acceptable
    have isReserved : "$b".startsWith "$" = true := by decide +kernel
    rcases (acceptable.texts _ List.mem_cons_self).2 "$b" (by decide) with known | ⟨unreserved, _⟩
    · exact absurd known (by decide)
    · rw [isReserved] at unreserved
      cases unreserved
  rcases compile_isOk_iff (compiler "b + 1") host rfl with ⟨isOk, _, handed⟩
  rcases isOk.mpr accepted with ⟨output, isOutput⟩
  rcases compile_isOk_iff (compiler "$b") host rfl with ⟨isOk, failed, _⟩
  refine ⟨rfl, ⟨output, isOutput, handed output isOutput⟩, ?_⟩
  cases isResult : ((compiler "$b").compile host).1 with
  | ok output => exact absurd (isOk.mp ⟨output, isResult⟩) rejected
  | error errors => exact ⟨errors, rfl, failed errors isResult⟩

end Compiler

end AnalyzerGlue
