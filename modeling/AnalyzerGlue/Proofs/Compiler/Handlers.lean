import AnalyzerGlue.Proofs.Compiler.Contents
import AnalyzerGlue.Proofs.Declaration.Naming

/-!
# Handlers of hook modules

The handlers of a hook module are named after the events that attach to its grammar module:
after the name of the event and the hash of its declaration.  So a hook module declares no
handler twice exactly if no two of these events are declared in the same way on the same
line of one file, as long as hashes do not collide.  Nothing keeps a source from declaring an
event twice on one line, and nothing keeps a source from being loaded twice.
-/

namespace AnalyzerGlue

namespace HookModule

/-! ## Handlers -/

theorem handlerName_eq_iff {event other : Event} :
    handlerName event = handlerName other ↔
      event.name.flattened = other.name.flattened ∧ event.stableHash = other.stableHash := by
  rw [handlerName, handlerName, String.append_right_inj, Event.mangledName_eq_iff]

/-- If hashes do not collide, two events share a handler exactly if they are declared in the
same way. -/
theorem handlerName_eq_iff_sameDeclaration {event other : Event} (fits : event.FitsWords)
    (otherFits : other.FitsWords)
    (apart : event.stableHash = other.stableHash → event.message = other.message) :
    handlerName event = handlerName other ↔ event.SameDeclaration other := by
  rw [handlerName_eq_iff]
  constructor
  · rintro ⟨_, sameHash⟩
    exact (Event.message_eq_iff fits otherFits).mp (apart sameHash)
  · intro same
    refine ⟨by rw [same.name], ?_⟩
    rw [Event.stableHash, Event.stableHash, (Event.message_eq_iff fits otherFits).mpr same]

/-- The globals of a hook module are the handlers of the events that refer to its grammar
module. -/
theorem IsModuleOf.map_globals {table : TypeTable} {store : Store} {grammar : GrammarModule}
    {code : Code.Module} (isModule : IsModuleOf table store grammar code) :
    code.globals.map Code.Global.id =
      (store.events.filter fun event => event.moduleId? table = some grammar.id).map
        handlerName := by
  rcases isModule.decls with ⟨pairs, related, isDecls⟩
  rw [Code.Module.globals, isDecls]
  generalize (store.events.filter fun event => event.moduleId? table = some grammar.id) = events
    at related
  clear isDecls
  induction related with
  | nil => rfl
  | cons isPair _ ih =>
      rw [List.flatMap_cons, List.filterMap_append, List.map_append, ih, List.map_cons,
        ← isPair.handler.1]
      rfl

end HookModule

namespace Compiler

variable {compiler changed : Compiler} {host after : Host} {output : Output}

/-- Each hook module belongs to a registered grammar module. -/
theorem exists_isModuleOf (cooperative : host.cooperative = true)
    (compiled : compiler.compile host = (.ok output, changed, after)) {code : Code.Module}
    (member : code ∈ output.hooks) :
    ∃ grammar ∈ compiler.registered host.table,
      HookModule.IsModuleOf host.table compiler.store grammar code := by
  rcases of_compile_eq_ok compiled with ⟨noErrors, rfl, _⟩
  rw [errors] at noErrors
  simp only [List.append_eq_nil_iff, List.map_eq_nil_iff] at noErrors
  rcases noErrors with ⟨⟨⟨_, resolved⟩, _⟩, generated⟩
  have placed := (resolution_errors_eq_nil_iff cooperative).mp resolved
  have expressible := (generation_errors_eq_nil_iff cooperative placed).mp generated
  rw [Compiler.output, generation, resolution_fst_eq cooperative,
    generateHooks_hooks_eq] at member
  rcases List.mem_map.mp member with ⟨attached, isAttached, rfl⟩
  rcases List.mem_map.mp (List.mem_of_mem_filter isAttached) with ⟨grammar, isGrammar, rfl⟩
  exact ⟨grammar, isGrammar, isModuleOf_generate placed expressible grammar⟩

/-- The globals of a hook module are the handlers of the events that refer to its grammar
module, in their order.  If hashes do not collide, they are declared once each exactly if no
two of these events are declared in the same way on the same line of one file. -/
theorem compile_handlers (cooperative : host.cooperative = true)
    (compiled : compiler.compile host = (.ok output, changed, after))
    (fits : ∀ event ∈ compiler.store.events, event.FitsWords)
    (apart : ∀ event ∈ compiler.store.events, ∀ other ∈ compiler.store.events,
      event.stableHash = other.stableHash → event.message = other.message) :
    ∀ code ∈ output.hooks, ∃ grammar ∈ compiler.registered host.table,
      let attached := compiler.store.events.filter fun event =>
        event.moduleId? host.table = some grammar.id
      code.id = HostRuntime.hooksModule grammar.id ∧
      code.globals.map Code.Global.id = attached.map HookModule.handlerName ∧
      ((code.globals.map Code.Global.id).Nodup ↔
        attached.Pairwise fun event other => ¬ event.SameDeclaration other) := by
  intro code member
  rcases exists_isModuleOf cooperative compiled member with ⟨grammar, isGrammar, isModule⟩
  refine ⟨grammar, isGrammar, isModule.id, isModule.map_globals, ?_⟩
  rw [isModule.map_globals, List.Nodup, List.pairwise_map]
  refine List.Pairwise.iff_of_mem fun {event other} isAttached isOther => not_congr ?_
  have declared := List.mem_of_mem_filter isAttached
  have otherDeclared := List.mem_of_mem_filter isOther
  exact HookModule.handlerName_eq_iff_sameDeclaration (fits event declared)
    (fits other otherDeclared) (apart event declared other otherDeclared)

/-- What is known of the result of a compilation is known of its output. -/
theorem exists_compile_eq_ok {α : Type} {view : Output → α} {seen : α}
    (isSeen : (compiler.compile host).1.map view = .ok seen) :
    ∃ output changed after, compiler.compile host = (.ok output, changed, after) ∧
      view output = seen := by
  rcases isResult : compiler.compile host with ⟨error | output, changed, after⟩
  · rw [isResult] at isSeen
    cases isSeen
  · rw [isResult] at isSeen
    cases isSeen
    exact ⟨output, changed, after, rfl, rfl⟩

/-- The same statement on two lines: its handlers have different names. -/
theorem compile_handlers_lines :
    let table : TypeTable :=
      ⟨[(⟨"M"⟩, ⟨"m.spicy"⟩)], [⟨⟨"M::U"⟩, .unit [], ⟨"M"⟩, ⟨"m.spicy"⟩, none⟩], []⟩
    let host := Host.start table false true
    let compiler := ((start Options.usual).load ⟨"a.evt"⟩
      "on M::U -> event e();\non M::U -> event e();").1
    host.cooperative = true ∧
      (∀ event ∈ compiler.store.events, event.FitsWords) ∧
      (∀ event ∈ compiler.store.events, ∀ other ∈ compiler.store.events,
        event.stableHash = other.stableHash → event.message = other.message) ∧
      ∃ output changed after, compiler.compile host = (.ok output, changed, after) ∧
        output.hooks.length = 1 ∧
        ∀ code ∈ output.hooks, (code.globals.map Code.Global.id).Nodup := by
  intro table host compiler
  let event (line : Nat) : Event := .declare ⟨"M::U"⟩ ⟨"e"⟩ ⟨⟨"a.evt"⟩, line⟩
  have isEvents : compiler.store.events = [event 1, event 2] := by
    simp only [compiler, event]
    with_unfolding_all rfl
  have isSeen : (compiler.compile host).1.map (fun output => output.hooks.length) = .ok 1 := by
    simp only [compiler, host, table]
    decide +kernel
  have fits : ∀ event ∈ compiler.store.events, event.FitsWords := by
    rw [isEvents]
    simp only [List.forall_mem_cons]
    exact ⟨⟨by decide, by decide, by decide⟩, ⟨by decide, by decide, by decide⟩,
      List.forall_mem_nil _⟩
  have differ : (event 1).stableHash ≠ (event 2).stableHash := by decide
  have apart : ∀ event ∈ compiler.store.events, ∀ other ∈ compiler.store.events,
      event.stableHash = other.stableHash → event.message = other.message := by
    rw [isEvents]
    intro first isFirst second isSecond same
    rcases List.mem_pair.mp isFirst with rfl | rfl
    · rcases List.mem_pair.mp isSecond with rfl | rfl
      · rfl
      · exact absurd same differ
    · rcases List.mem_pair.mp isSecond with rfl | rfl
      · exact absurd same.symm differ
      · rfl
  have distinct : compiler.store.events.Pairwise fun event other =>
      ¬ event.SameDeclaration other := by
    rw [isEvents, List.pairwise_pair]
    exact fun same => absurd same.line (by decide)
  rcases exists_compile_eq_ok isSeen with ⟨output, changed, after, compiled, isOne⟩
  refine ⟨rfl, fits, apart, output, changed, after, compiled, isOne, fun code member => ?_⟩
  rcases compile_handlers rfl compiled fits apart code member with ⟨grammar, _, _, _, isNodup⟩
  exact isNodup.mpr (distinct.filter _)

/-- The same statement twice on one line: the compilation succeeds, and the hook module
declares one handler twice. -/
theorem compile_handlers_repeated :
    let table : TypeTable :=
      ⟨[(⟨"M"⟩, ⟨"m.spicy"⟩)], [⟨⟨"M::U"⟩, .unit [], ⟨"M"⟩, ⟨"m.spicy"⟩, none⟩], []⟩
    let host := Host.start table false true
    let compiler := ((start Options.usual).load ⟨"a.evt"⟩
      "on M::U -> event e();on M::U -> event e();").1
    ∃ output changed after code, compiler.compile host = (.ok output, changed, after) ∧
      code ∈ output.hooks ∧
      code.globals.map Code.Global.id =
        ["__handler_e_104d707d9d8eecea", "__handler_e_104d707d9d8eecea"] ∧
      ¬ (code.globals.map Code.Global.id).Nodup := by
  intro table host compiler
  have isSeen : (compiler.compile host).1.map (fun output =>
      output.hooks.map fun code => code.globals.map Code.Global.id) =
        .ok [["__handler_e_104d707d9d8eecea", "__handler_e_104d707d9d8eecea"]] := by
    simp only [compiler, host, table]
    decide +kernel
  rcases exists_compile_eq_ok isSeen with ⟨output, changed, after, compiled, isHandlers⟩
  rcases List.map_eq_singleton_iff.mp isHandlers with ⟨code, isHooks, isRepeated⟩
  refine ⟨output, changed, after, code, compiled, ?_, isRepeated, ?_⟩
  · rw [isHooks]
    exact List.mem_singleton_self code
  · rw [isRepeated]
    decide

end Compiler

end AnalyzerGlue
