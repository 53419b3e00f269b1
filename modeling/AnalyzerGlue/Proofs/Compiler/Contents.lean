import Mathlib.Data.List.Induction
import Mathlib.Data.List.Nodup
import AnalyzerGlue.Proofs.Compiler.Acceptance
import AnalyzerGlue.Proofs.Evt.Fidelity

/-!
# What a compilation yields

What has been declared comes out in the generated modules, with nothing lost, doubled or
out of order.  The init module registers all analyzers, events and exported types.  Each
grammar module that events refer to has one hook module, which imports what the directives
ask for and has a handler and a hook for each of these events.

This holds of a compiler that has only loaded sources and registered modules.  A module
keeps the sources of an earlier compilation, and would be given a hook module because of
them even if no event refers to it any more.
-/

namespace AnalyzerGlue

/-! ## Prepared compilers -/

namespace GrammarModule

/-- Nothing attaches to any of the modules, and each is registered once. -/
def AreFresh (modules : List GrammarModule) : Prop :=
  (∀ grammar ∈ modules, grammar.sources = []) ∧ (modules.map GrammarModule.id).Nodup

end GrammarModule

/-- Adding an entry brings in no other one. -/
theorem mem_of_mem_upsert {α κ : Type} [DecidableEq κ] {key : α → κ} {entry other : α}
    {entries : List α} (member : other ∈ upsert key entry entries) :
    other = entry ∨ other ∈ entries := by
  induction entries with
  | nil => exact .inl (List.mem_singleton.mp member)
  | cons first others ih =>
      rw [upsert] at member
      split at member
      · rcases List.mem_cons.mp member with isEntry | isOther
        · exact .inl isEntry
        · exact .inr (.tail _ isOther)
      · rcases List.mem_cons.mp member with rfl | isOther
        · exact .inr List.mem_cons_self
        · exact (ih isOther).imp_right (.tail _)

namespace GrammarModule.AreFresh

variable {modules : List GrammarModule}

theorem upsert (fresh : AreFresh modules) (id : QualName) (file : Path) :
    AreFresh (AnalyzerGlue.upsert GrammarModule.id (.declare id file) modules) := by
  refine ⟨fun grammar member => ?_, ?_⟩
  · rcases mem_of_mem_upsert member with rfl | old
    · rfl
    · exact fresh.1 grammar old
  · rw [map_key_upsert]
    split
    · exact fresh.2
    · rename_i isNew
      rw [← List.concat_eq_append]
      exact List.Nodup.concat isNew fresh.2

theorem keepModules {added : List GrammarModule} (fresh : AreFresh modules)
    (detached : ∀ grammar ∈ added, grammar.sources = []) :
    AreFresh (Store.keepModules modules added) := by
  induction added generalizing modules with
  | nil => exact fresh
  | cons first others ih =>
      rw [List.forall_mem_cons] at detached
      refine @ih (Store.keepModule modules first) ?_ detached.2
      rw [Store.keepModule_eq]
      split
      · exact fresh
      · rename_i isNew
        refine ⟨List.forall_mem_append.mpr ⟨fresh.1, by simpa using detached.1⟩, ?_⟩
        rw [List.map_append, List.map_singleton, ← List.concat_eq_append]
        exact List.Nodup.concat isNew fresh.2

end GrammarModule.AreFresh

namespace Store

end Store

namespace Compiler

end Compiler

/-! ## Imports of hook modules -/

namespace HookModule

open HostRuntime

/-- The import that a directive asks for, with directories to search. -/
def directive (dirs : List Path) (decl : ImportDecl) : Code.Import :=
  ⟨decl.name, .spicy, decl.scope, none, dirs⟩

theorem same_directive_iff {dirs : List Path} {decl other : ImportDecl} :
    (directive dirs decl).same (directive dirs other) = true ↔ decl = other := by
  cases decl
  cases other
  simp [directive, Code.Import.same]

/-- Imports of directives are added once each, in the order of their first occurrence. -/
theorem foldl_addImport_directive {start : Code.Module} {dirs : List Path}
    (apart : ∀ decl, start.imports.any (directive dirs decl).same = false)
    (decls : List ImportDecl) :
    decls.foldl (fun code decl => code.addImport (directive dirs decl)) start =
      { start with imports := start.imports ++ decls.eraseDups.map (directive dirs) } := by
  induction decls using List.reverseRecOn with
  | nil => simp
  | append_singleton decls last ih =>
      have isKnown : (start.imports ++ decls.eraseDups.map (directive dirs)).any
          (directive dirs last).same = true ↔ last ∈ decls := by
        simp [List.any_append, apart, same_directive_iff]
      rw [List.foldl_append, ih, List.foldl_cons, List.foldl_nil, Code.Module.addImport,
        List.eraseDups_append]
      simp only [isKnown]
      by_cases known : last ∈ decls
      · simp [known, List.removeAll]
      · have isLast : [last].eraseDups = [last] := rfl
        simp [known, List.removeAll, isLast]

theorem header_eq (imports : List ImportDecl) (grammar : GrammarModule) :
    header imports grammar =
      ⟨hooksModule grammar.id,
        ⟨grammar.id, .spicy, none, some grammar.file, []⟩ :: .plain moduleName .hilti ::
          imports.eraseDups.map (directive grammar.searchDirs), []⟩ := by
  let own : Code.Import := ⟨grammar.id, .spicy, none, some grammar.file, []⟩
  have isStart : ((Code.Module.empty (hooksModule grammar.id)).addImport own).addImport
      (.plain moduleName .hilti) =
        ⟨hooksModule grammar.id, [own, .plain moduleName .hilti], []⟩ := by
    simp [own, Code.Module.addImport, Code.Module.empty, Code.Import.same, Code.Import.plain]
  -- A directive has no path, unlike the module's own import, and is not for the runtime.
  have apart : ∀ decl, [own, .plain moduleName .hilti].any
      (directive grammar.searchDirs decl).same = false := by
    intro decl
    simp [own, directive, Code.Import.same, Code.Import.plain]
  rw [header, isStart]
  exact @foldl_addImport_directive ⟨hooksModule grammar.id, _, []⟩ grammar.searchDirs apart imports

/-! ## Declarations of hook modules -/

/-- A handler and a hook as declarations, one behind the other. -/
def declsOfPair (pair : Code.Global × Code.Hook) : List Code.Decl :=
  [.global pair.1, .hook pair.2]

/-- Whether a statement adds a value to a vector. -/
def isPush : Code.Stmt → Bool
  | .expr (.memberCall _ method _ _) => method == "push_back"
  | _ => false

/-- The handler and the hook that an event asks for. -/
structure IsPairOf (table : TypeTable) (event : Event) (pair : Code.Global × Code.Hook) :
    Prop where
  /-- The handler is that of the event. -/
  handler : pair.1.id = handlerName event ∧
    pair.1.init = call "internal_handler" [.ofString event.name.text]
  /-- The hook is the one that the event refers to. -/
  hook : ∃ target, event.target table = .ok target ∧ pair.2.hook = target.hook
  /-- The hook has the priority of the event. -/
  priority : pair.2.priority? = some event.priority
  /-- The hook adds one value for each argument. -/
  pushes : ∃ values,
    List.Forall₂ (fun argument value => argumentValue event argument = .ok value)
      event.arguments values ∧
    pair.2.body.filter isPush = values.map push

/-- No statement of a hook adds a value but those for the arguments. -/
theorem filter_isPush_of_body_eq_ok {debug : Bool} {event : Event} {stmts : List Code.Stmt}
    (isBody : body debug event = .ok stmts) :
    ∃ values,
      List.Forall₂ (fun argument value => argumentValue event argument = .ok value)
        event.boundArguments values ∧
      stmts.filter isPush = values.map push := by
  rcases body_eq_ok_iff.mp isBody with ⟨conditions, pushes, isConditions, isPushes, rfl⟩
  rcases pushArguments_eq_ok_iff.mp isPushes with ⟨values, related, rfl⟩
  have noCondition : conditions.filter isPush = [] := by
    unfold conditionStmts at isConditions
    split at isConditions
    · cases isConditions
      rfl
    · split at isConditions
      · cases isConditions
      · cases isConditions
        rfl
  have noDebug : (if debug then [debugStmt event] else []).filter isPush = [] := by
    cases debug <;> rfl
  have allPushes : (values.map push).filter isPush = values.map push := by
    rw [List.filter_eq_self, List.forall_mem_map]
    exact fun _ _ => rfl
  refine ⟨values, related, ?_⟩
  rw [List.filter_append, List.filter_append, List.filter_append, List.filter_append, noCondition,
    noDebug, allPushes]
  simp [isPush, Code.Stmt.returnUnless, call, Expr.callOf]

theorem exists_of_declsOf_eq_ok {debug : Bool} {event : Event} {decls : List Code.Decl}
    (generated : declsOf debug event = .ok decls) :
    ∃ hook stmts, event.hook = some hook ∧ body debug event = .ok stmts ∧
      decls = declsOfPair
        (⟨handlerName event, call "internal_handler" [.ofString event.name.text], .hidden,
            some event.location⟩,
          ⟨hook, stmts, .all, [⟨"&priority", some (.ofInt event.priority)⟩],
            some event.location⟩) := by
  unfold declsOf at generated
  split at generated
  · cases generated
  · rename_i hook isHook
    split at generated
    · cases generated
    · rename_i stmts isBody
      cases generated
      exact ⟨hook, stmts, isHook, isBody, rfl⟩

/-- What is generated for an event that is placed is what it asks for. -/
theorem exists_isPairOf {debug : Bool} {table : TypeTable} {ids : List QualName}
    {event : Event} {decls : List Code.Decl} (placed : event.IsPlaced table ids)
    (generated : declsOf debug (event.settled table ids) = .ok decls) :
    ∃ pair, IsPairOf table event pair ∧ decls = declsOfPair pair := by
  rcases placed with ⟨target, isTarget, registered⟩
  rw [Event.settled_eq_bind isTarget registered] at generated
  rcases exists_of_declsOf_eq_ok generated with ⟨hook, stmts, isHook, isBody, rfl⟩
  rcases filter_isPush_of_body_eq_ok isBody with ⟨values, related, isPushed⟩
  cases isHook
  exact ⟨_, ⟨⟨rfl, rfl⟩, ⟨target, isTarget, rfl⟩, rfl, values, related, isPushed⟩, rfl⟩

/-- What is generated for events is added in their order. -/
theorem exists_foldl_addEvent_eq {debug : Bool} {table : TypeTable} {ids : List QualName}
    {events : List Event} (code : Code.Module)
    (generated : ∀ event ∈ events, ∃ pair, IsPairOf table event pair ∧
      declsOf debug (event.settled table ids) = .ok (declsOfPair pair)) :
    ∃ pairs, List.Forall₂ (IsPairOf table) events pairs ∧
      (events.map fun event => event.settled table ids).foldl (addEvent debug) (code, []) =
        (code.add (pairs.flatMap declsOfPair), []) := by
  induction events generalizing code with
  | nil => exact ⟨[], .nil, by simp [Code.Module.add]⟩
  | cons first others ih =>
      rw [List.forall_mem_cons] at generated
      rcases generated.1 with ⟨pair, holds, isPair⟩
      rcases ih (code.add (declsOfPair pair)) generated.2 with ⟨pairs, related, isAdded⟩
      refine ⟨pair :: pairs, .cons holds related, ?_⟩
      rw [List.map_cons, List.foldl_cons, addEvent, isPair]
      simp only [isAdded]
      simp [Code.Module.add]

/-- The hook module that a grammar module asks for, given declarations. -/
structure IsModuleOf (table : TypeTable) (store : Store) (grammar : GrammarModule)
    (code : Code.Module) : Prop where
  /-- It is named after the grammar module. -/
  id : code.id = hooksModule grammar.id
  /-- It imports the grammar module, the runtime, and what the directives ask for, once
  each and in the order of their first occurrence.  What the directives ask for is
  searched beside the sources whose events attach to the grammar module. -/
  imports : code.imports =
    ⟨grammar.id, .spicy, none, some grammar.file, []⟩ :: .plain moduleName .hilti ::
      store.imports.eraseDups.map (directive (grammar.attach table store.events).searchDirs)
  /-- It declares a handler and a hook for each event that refers to the grammar
  module. -/
  decls : ∃ pairs,
    List.Forall₂ (IsPairOf table)
      (store.events.filter fun event => event.moduleId? table = some grammar.id) pairs ∧
    code.decls = pairs.flatMap declsOfPair

end HookModule

/-! ## Compilations -/

namespace HostType

end HostType

namespace Compiler

/-- Hook modules are generated for the modules with sources, in their order. -/
theorem generateHooks_hooks_eq {debug : Bool} {store : Store} {grammars : List GrammarModule} :
    (generateHooks debug store grammars).2.1 =
      (grammars.filter fun grammar => !grammar.sources.isEmpty).map fun grammar =>
        (HookModule.generate debug store grammar).1 := by
  induction grammars with
  | nil => rfl
  | cons first others ih =>
      rw [generateHooks, List.filter_cons]
      cases first.sources.isEmpty <;> simp [ih]

section

variable {compiler : Compiler} {table : TypeTable}

/-- The events that attach to a module are those that refer to it. -/
theorem filter_attaches_eq (placed : compiler.AllPlaced table) (grammar : GrammarModule) :
    (compiler.resolvedStore table).events.filter
        (HookModule.attaches (grammar.attach table compiler.store.events)) =
      (compiler.store.events.filter fun event => event.moduleId? table = some grammar.id).map
        fun event => event.settled table ((compiler.registered table).map GrammarModule.id) := by
  rw [resolvedStore, List.filter_map]
  congr 1
  refine List.filter_congr fun event member => ?_
  rw [Bool.eq_iff_iff, Function.comp_apply, attaches_settled_iff (placed event member),
    GrammarModule.id_attach, decide_eq_true_iff]

/-- What is generated for a module is what it asks for. -/
theorem isModuleOf_generate {debug : Bool} (placed : compiler.AllPlaced table)
    (expressible : ∀ event ∈ compiler.store.events, event.IsExpressible)
    (grammar : GrammarModule) :
    HookModule.IsModuleOf table compiler.store grammar
      (HookModule.generate debug (compiler.resolvedStore table)
        (grammar.attach table compiler.store.events)).1 := by
  have generated : ∀ event ∈ compiler.store.events.filter fun event =>
      event.moduleId? table = some grammar.id,
      ∃ pair, HookModule.IsPairOf table event pair ∧
        HookModule.declsOf debug
          (event.settled table ((compiler.registered table).map GrammarModule.id)) =
            .ok (HookModule.declsOfPair pair) := by
    intro event member
    have isPlaced := placed event (List.mem_of_mem_filter member)
    rcases (exists_declsOf_settled_iff isPlaced).mpr
      (expressible event (List.mem_of_mem_filter member)) with ⟨decls, isDecls⟩
    rcases HookModule.exists_isPairOf isPlaced isDecls with ⟨pair, isPair, rfl⟩
    exact ⟨pair, isPair, isDecls⟩
  rcases HookModule.exists_foldl_addEvent_eq
    (HookModule.header compiler.store.imports (grammar.attach table compiler.store.events))
    generated with ⟨pairs, related, isAdded⟩
  have sameImports : (compiler.resolvedStore table).imports = compiler.store.imports := rfl
  rw [HookModule.generate, filter_attaches_eq placed, sameImports, isAdded, HookModule.header_eq,
    GrammarModule.id_attach, GrammarModule.file_attach]
  exact ⟨rfl, rfl, pairs, related, rfl⟩

/-- A compilation with a result has found no error. -/
theorem of_compile_eq_ok {changed : Compiler} {host after : Host} {output : Output}
    (compiled : compiler.compile host = (.ok output, changed, after)) :
    compiler.errors host = [] ∧ output = compiler.output host ∧
      after.table = (compiler.noted host).table := by
  rw [compile_eq] at compiled
  split at compiled
  · rename_i isEmpty
    cases compiled
    exact ⟨List.isEmpty_iff.mp isEmpty, rfl, rfl⟩
  · cases compiled

end

end Compiler

end AnalyzerGlue
