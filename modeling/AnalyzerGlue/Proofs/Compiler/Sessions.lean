import AnalyzerGlue.Proofs.Compiler.Contents
import AnalyzerGlue.Proofs.Compiler.Settling
import AnalyzerGlue.Proofs.Evt.Reprinting

/-!
# Sessions without internal errors

Internal errors are for steps of a compilation that do not fit together: a unit whose module
has not been registered, or an event that attaches to a module and has no hook.  Two
invariants rule them out.  In a table that is read from a type index, every type is of a
module of the table, and compilations adopt all modules of the host.  In the declarations of
a compiler, every event with a binding has a hook, however often sources were loaded, modules
registered and compilations tried before, and whether they failed or not.
-/

namespace AnalyzerGlue

/-! ## Tables -/

namespace TypeTable

/-- Every type is of a module of the table. -/
def IsClosed (table : TypeTable) : Prop :=
  ∀ info ∈ table.types, info.moduleId ∈ table.modules.map Prod.fst

/-- Declaring a module, also one that is declared already, takes no module away. -/
theorem mem_modules_addModule_iff {table : TypeTable} {id other : QualName} {file : Path} :
    other ∈ (table.addModule id file).modules.map Prod.fst ↔
      other = id ∨ other ∈ table.modules.map Prod.fst := by
  rw [addModule, map_key_upsert]
  split
  · rename_i declared
    constructor
    · exact .inr
    · rintro (rfl | old)
      · exact declared
      · exact old
  · rw [List.mem_append, List.mem_singleton, or_comm]

theorem modules_addEntry (moduleId : QualName) (file : Path) (table : TypeTable) (entry : Entry) :
    (table.addEntry moduleId file entry).modules = table.modules := by
  unfold addEntry
  split
  · rcases exists_markExported_eq (table.addType moduleId entry.id entry.type _) entry.id with
      ⟨names, isMarked, _⟩
    rw [isMarked]
    rfl
  · rfl

namespace IsClosed

variable {table : TypeTable} {moduleId : QualName}

theorem addModule (closed : table.IsClosed) (id : QualName) (file : Path) :
    (table.addModule id file).IsClosed :=
  fun info member => mem_modules_addModule_iff.mpr (.inr (closed info member))

theorem markExported (closed : table.IsClosed) (id : QualName) :
    (table.markExported id).IsClosed := by
  rcases exists_markExported_eq table id with ⟨names, isMarked, _⟩
  rw [isMarked]
  exact closed

theorem addType (closed : table.IsClosed) (declared : moduleId ∈ table.modules.map Prod.fst)
    (id : QualName) (type : GrammarType) (location : Option Location) :
    (table.addType moduleId id type location).IsClosed := by
  intro info member
  rcases mem_of_mem_upsert member with rfl | old
  · exact declared
  · exact closed info old

theorem addEntry (closed : table.IsClosed) (declared : moduleId ∈ table.modules.map Prod.fst)
    (file : Path) (entry : Entry) : (table.addEntry moduleId file entry).IsClosed := by
  have isAdded := closed.addType declared entry.id entry.type
    (entry.line.map fun line => (⟨file, line⟩ : Location))
  unfold TypeTable.addEntry
  split
  · exact isAdded.markExported entry.id
  · exact isAdded

theorem foldl_addEntry (closed : table.IsClosed)
    (declared : moduleId ∈ table.modules.map Prod.fst) (file : Path) (entries : List Entry) :
    (entries.foldl (TypeTable.addEntry moduleId file) table).IsClosed := by
  induction entries generalizing table with
  | nil => exact closed
  | cons first others ih =>
      refine ih (closed.addEntry declared file first) ?_
      rw [modules_addEntry]
      exact declared

theorem foldl_addModuleEntry (closed : table.IsClosed) (entries : List ModuleEntry) :
    (entries.foldl addModuleEntry table).IsClosed := by
  induction entries generalizing table with
  | nil => exact closed
  | cons first others ih =>
      refine ih ((closed.addModule first.id first.file).foldl_addEntry ?_ first.file first.types)
      exact mem_modules_addModule_iff.mpr (.inl rfl)

end IsClosed

/-- A table that is read from a type index is closed. -/
theorem isClosed_of_parse?_eq_some {text : String} {table : TypeTable}
    (read : parse? text = some table) : table.IsClosed := by
  rcases Option.bind_eq_some_iff.mp read with ⟨json, _, isTable⟩
  unfold ofJson? at isTable
  rcases Option.bind_eq_some_iff.mp isTable with ⟨members, _, isTable⟩
  rcases Option.bind_eq_some_iff.mp isTable with ⟨modules, _, isTable⟩
  cases isTable
  have isEmpty : empty.IsClosed := by
    rintro info ⟨⟩
  exact isEmpty.foldl_addModuleEntry modules

/-- Only units of the table are looked up. -/
theorem mem_types_of_lookupUnit_eq_ok {table : TypeTable} {id : QualName} {info : TypeInfo}
    {items : List UnitItem} (found : table.lookupUnit id = .ok (info, items)) :
    info ∈ table.types := by
  unfold lookupUnit lookup at found
  cases isFound : table.find? id with
  | none =>
      rw [isFound] at found
      cases found
  | some declared =>
      simp only [isFound] at found
      split at found
      · cases found
        exact mem_types_of_find?_eq_some isFound
      · cases found

end TypeTable

/-! ## Hosts -/

namespace Host

/-- The hosts that were given a type index, and those that compilations make of them. -/
inductive IsRead : Host → Prop where
  | read {host : Host} (text : String) :
      TypeTable.parse? text = some host.table → host.cooperative = true → IsRead host
  | compiled {host : Host} (compiler : Compiler) :
      IsRead host → IsRead (compiler.compile host).2.2

/-- The host lists its modules, and every type is of one of them. -/
structure IsComplete (host : Host) : Prop where
  cooperative : host.cooperative = true
  closed : host.table.IsClosed

/-- Taking note of exports keeps all types and modules. -/
theorem IsComplete.noted {host : Host} (complete : host.IsComplete) (compiler : Compiler) :
    (compiler.noted host).IsComplete := by
  rcases @Compiler.exists_noted_eq compiler host complete.cooperative with ⟨names, isNoted, _⟩
  rw [isNoted]
  exact ⟨complete.cooperative, complete.closed⟩

theorem IsComplete.compiled {host : Host} (complete : host.IsComplete) (compiler : Compiler) :
    (compiler.compile host).2.2.IsComplete := by
  rw [Compiler.compile_eq]
  split
  · exact ⟨(complete.noted compiler).cooperative, (complete.noted compiler).closed⟩
  · exact complete.noted compiler

theorem IsRead.isComplete {host : Host} (read : host.IsRead) : host.IsComplete := by
  induction read with
  | read text isTable cooperative =>
      exact ⟨cooperative, TypeTable.isClosed_of_parse?_eq_some isTable⟩
  | compiled compiler _ complete => exact complete.compiled compiler

end Host

/-! ## Events -/

namespace Event

/-- The event has a hook if it has a binding. -/
def IsHooked (event : Event) : Prop :=
  event.binding.isSome = true → event.hook.isSome = true

/-- Resolving fills in a hook with each binding, and takes no hook away. -/
theorem IsHooked.settled {event : Event} (hooked : event.IsHooked) (table : TypeTable)
    (ids : List QualName) : (event.settled table ids).IsHooked := by
  unfold Event.settled
  split
  · exact hooked
  · split <;> exact fun _ => rfl

/-- What an event refers to is a unit of the table. -/
theorem info_mem_types_of_target_eq_ok {table : TypeTable} {event : Event} {target : Target}
    (isTarget : event.target table = .ok target) : target.info ∈ table.types := by
  rcases exists_target_iff.mp ⟨target, isTarget, rfl⟩ with ⟨info, items, isUnit, isInfo⟩
  rw [isInfo]
  rcases isUnit with isUnit | ⟨_, _, isUnit⟩
  · exact TypeTable.mem_types_of_lookupUnit_eq_ok isUnit
  · exact TypeTable.mem_types_of_lookupUnit_eq_ok isUnit

end Event

namespace Store

/-- Every event with a binding has a hook. -/
def IsHooked (store : Store) : Prop :=
  ∀ event ∈ store.events, event.IsHooked

/-- Statements bring in no events but those that they declare. -/
theorem mem_events_of_mem_foldl_addStatement {store : Store} {statements : List Evt.Statement}
    {event : Event} (member : event ∈ (statements.foldl addStatement store).events) :
    event ∈ store.events ∨ .event event ∈ statements := by
  induction statements generalizing store with
  | nil => exact .inl member
  | cons first others ih =>
      rcases ih member with added | isOther
      · cases first with
        | event declared =>
            rcases List.mem_append.mp added with old | isNew
            · exact .inl old
            · rw [List.mem_singleton.mp isNew]
              exact .inr List.mem_cons_self
        | _ => exact .inl added
      · exact .inr (.tail _ isOther)

/-- Statements that are read can be written. -/
theorem forall_isWritable {path : Path} {version : Nat} {chunks : List Evt.Chunk}
    {statements : List Evt.Statement}
    (read : List.Forall₂
      (fun chunk statement =>
        Evt.Statement.parse chunk.text ⟨path, chunk.line⟩ version = .ok statement)
      chunks statements) :
    ∀ statement ∈ statements, Evt.Statement.IsWritable version statement := by
  induction read with
  | nil => exact List.forall_mem_nil _
  | cons isRead _ ih =>
      refine List.forall_mem_cons.mpr ⟨?_, ih⟩
      unfold Evt.Statement.parse Evt.Statement.run at isRead
      split at isRead
      · rename_i isResult
        cases isRead
        exact @Evt.Statement.returns_reader Evt.Reader.Anywhere _ version _ _ _ trivial isResult
      · cases isRead

/-- Events of a source have not been resolved. -/
theorem isHooked_of_load_eq_ok {path : Path} {source : List Char} {version : Nat} {store : Store}
    (loaded : load path source version = .ok store) : store.IsHooked := by
  rcases exists_of_load_eq_ok loaded with ⟨_, statements, _, read, rfl⟩
  -- An event that has been read has no binding to begin with.
  intro event member bound
  rcases mem_events_of_mem_foldl_addStatement member with old | isStatement
  · cases old
  have isEvent : Evt.Statement.IsEvent event := forall_isWritable read _ isStatement
  rw [isEvent.unresolved.2.2] at bound
  cases bound

end Store

/-! ## Sessions -/

namespace Compiler

/-- The compilers that loads, registrations and compilations lead to. -/
inductive IsReached : Compiler → Prop where
  | start (options : Options) : IsReached (start options)
  | load {compiler : Compiler} (path : Path) (source : String) :
      IsReached compiler → IsReached (compiler.load path source).1
  | loadFile {compiler : Compiler} (path : Path) (contents : Except String String) :
      IsReached compiler → IsReached (compiler.loadFile path contents).1
  | addModule {compiler : Compiler} (id : QualName) (file : Path) :
      IsReached compiler → IsReached (compiler.addModule id file)
  | compile {compiler : Compiler} (host : Host) :
      host.IsRead → IsReached compiler → IsReached (compiler.compile host).2.1

theorem isHooked_load {compiler : Compiler} (hooked : compiler.store.IsHooked) (path : Path)
    (source : String) : (compiler.load path source).1.store.IsHooked := by
  unfold Compiler.load
  split
  · exact hooked
  · rename_i loaded isLoaded
    exact List.forall_mem_append.mpr ⟨hooked, Store.isHooked_of_load_eq_ok isLoaded⟩

/-- The events of the declarations that resolving leaves. -/
theorem isHooked_resolution {compiler : Compiler} (hooked : compiler.store.IsHooked)
    (host : Host) : (compiler.resolution host).1.IsHooked := by
  rw [resolution_eq, adopted_eq, Store.IsHooked, List.forall_mem_map]
  intro event member
  exact (hooked event member).settled _ _

theorem compile_compiler_eq (compiler : Compiler) (host : Host) :
    (compiler.compile host).2.1 = compiler.compiled host := by
  rw [compile_eq]
  split <;> rfl

theorem IsReached.isHooked {compiler : Compiler} (reached : compiler.IsReached) :
    compiler.store.IsHooked := by
  induction reached with
  | start options => exact List.forall_mem_nil _
  | load path source _ hooked => exact isHooked_load hooked path source
  | loadFile path contents _ hooked =>
      cases contents with
      | error reason => exact hooked
      | ok source => exact isHooked_load hooked path source
  | addModule id file _ hooked => exact hooked
  | compile host _ _ hooked =>
      rw [compile_compiler_eq]
      exact isHooked_resolution hooked host

end Compiler

/-! ## Errors -/

/-- The error says that steps of a compilation do not fit together. -/
def GlueError.IsInternal (error : GlueError) : Prop :=
  ∃ reason, error = .internal reason

namespace Store

variable {table : TypeTable} {store : Store}

theorem not_isInternal_of_mem_checkUnit {sort name : String} {location : Location}
    {unit : Option QualName} {error : GlueError}
    (member : error ∈ checkUnit table sort name location unit) : ¬ error.IsInternal := by
  unfold checkUnit at member
  split at member
  · cases member
  · split at member
    · cases member
    · cases List.mem_singleton.mp member
      rintro ⟨_, ⟨⟩⟩

theorem not_isInternal_of_mem_checkAnalyzers {error : GlueError}
    (member : error ∈ store.checkAnalyzers table) : ¬ error.IsInternal := by
  simp only [checkAnalyzers, List.mem_append, List.mem_flatMap] at member
  rcases member with (⟨analyzer, _, originator | responder⟩ | ⟨analyzer, _, isError⟩) |
    ⟨analyzer, _, isError⟩
  · exact not_isInternal_of_mem_checkUnit originator
  · split at responder
    · cases responder
    · exact not_isInternal_of_mem_checkUnit responder
  · exact not_isInternal_of_mem_checkUnit isError
  · exact not_isInternal_of_mem_checkUnit isError

end Store

/-- Resolving an event finds no internal error if all modules of the table are
registered. -/
theorem Event.not_isInternal_of_mem_faults {table : TypeTable} {ids : List QualName}
    {event : Event} {error : GlueError} (closed : table.IsClosed)
    (registered : ∀ id ∈ table.modules.map Prod.fst, id ∈ ids)
    (member : error ∈ event.faults table ids) : ¬ error.IsInternal := by
  unfold faults at member
  split at member
  · cases List.mem_singleton.mp member
    rintro ⟨_, ⟨⟩⟩
  · rename_i target isTarget
    rw [if_pos (registered _ (closed _ (info_mem_types_of_target_eq_ok isTarget)))] at member
    cases member

namespace HookModule

variable {debug : Bool} {event : Event} {error : GlueError}

theorem not_isInternal_of_parseExpr_eq_error {text : String}
    (failed : parseExpr event text = .error error) : ¬ error.IsInternal := by
  unfold parseExpr at failed
  split at failed
  · cases failed
  · cases failed
    rintro ⟨_, ⟨⟩⟩

theorem not_isInternal_of_argumentValue_eq_error {argument : Argument}
    (failed : argumentValue event argument = .error error) : ¬ error.IsInternal := by
  unfold argumentValue at failed
  split at failed
  · cases failed
  · split at failed
    · cases failed
      rintro ⟨_, ⟨⟩⟩
    · split at failed
      · rename_i isError
        cases failed
        exact not_isInternal_of_parseExpr_eq_error isError
      · cases failed

theorem not_isInternal_of_pushArguments_eq_error {arguments : List Argument}
    (failed : pushArguments event arguments = .error error) : ¬ error.IsInternal := by
  induction arguments with
  | nil => cases failed
  | cons first others ih =>
      rw [pushArguments] at failed
      split at failed
      · rename_i isError
        cases failed
        exact not_isInternal_of_argumentValue_eq_error isError
      · split at failed
        · rename_i isError
          cases failed
          exact ih isError
        · cases failed

theorem not_isInternal_of_body_eq_error (failed : body debug event = .error error) :
    ¬ error.IsInternal := by
  unfold body conditionStmts at failed
  split at failed
  · rename_i isError
    cases failed
    split at isError
    · cases isError
    · split at isError
      · rename_i isError
        cases isError
        exact not_isInternal_of_parseExpr_eq_error isError
      · cases isError
  · split at failed
    · rename_i isError
      cases failed
      exact not_isInternal_of_pushArguments_eq_error isError
    · cases failed

/-- What is generated for an event fails with an internal error only if it has no hook. -/
theorem not_isInternal_of_declsOf_eq_error (hasHook : event.hook.isSome = true)
    (failed : declsOf debug event = .error error) : ¬ error.IsInternal := by
  unfold declsOf at failed
  split at failed
  · rename_i noHook
    rw [noHook] at hasHook
    cases hasHook
  · split at failed
    · rename_i isError
      cases failed
      exact not_isInternal_of_body_eq_error isError
    · cases failed

/-- The errors of a hook module are those of its events. -/
theorem mem_foldl_addEvent_iff {events : List Event} {state : Code.Module × List GlueError} :
    error ∈ (events.foldl (addEvent debug) state).2 ↔
      error ∈ state.2 ∨ ∃ event ∈ events, declsOf debug event = .error error := by
  induction events generalizing state with
  | nil => simp
  | cons first others ih =>
      rw [List.foldl_cons, ih, addEvent]
      cases isFirst : declsOf debug first with
      | ok decls => simp [isFirst]
      | error reason => simp [isFirst, or_assoc, @eq_comm _ error]

theorem not_isInternal_of_mem_generate {store : Store} {grammar : GrammarModule}
    (hooked : store.IsHooked) (member : error ∈ (generate debug store grammar).2) :
    ¬ error.IsInternal := by
  rw [generate, mem_foldl_addEvent_iff] at member
  rcases member with old | ⟨event, isAttached, failed⟩
  · cases old
  · rw [List.mem_filter] at isAttached
    have bound : event.binding.isSome = true := by
      cases isBinding : event.binding with
      | none => simp [attaches, isBinding] at isAttached
      | some binding => rfl
    exact not_isInternal_of_declsOf_eq_error (hooked event isAttached.1 bound) failed

end HookModule

namespace Compiler

theorem not_isInternal_of_mem_generateHooks {debug : Bool} {store : Store}
    {grammars : List GrammarModule} {error : GlueError} (hooked : store.IsHooked)
    (member : error ∈ (generateHooks debug store grammars).2.2) : ¬ error.IsInternal := by
  induction grammars with
  | nil => cases member
  | cons first others ih =>
      rw [generateHooks] at member
      by_cases noSources : first.sources.isEmpty = true
      · simp only [if_pos noSources] at member
        exact ih member
      · simp only [if_neg noSources] at member
        rcases List.mem_append.mp member with isFirst | isOther
        · exact HookModule.not_isInternal_of_mem_generate hooked isFirst
        · exact ih isOther

/-- Internal errors cannot happen: however a compiler was reached, and whatever type index
its host was given, no compilation reports one. -/
theorem compile_not_isInternal {compiler : Compiler} {host : Host} {errors : List GlueError}
    (reached : compiler.IsReached) (read : host.IsRead)
    (failed : (compiler.compile host).1 = .error errors) :
    ∀ error ∈ errors, ¬ error.IsInternal := by
  have isErrors : errors = compiler.errors host := by
    rw [compile_eq] at failed
    split at failed
    · cases failed
    · cases failed
      rfl
  have complete := read.isComplete
  have registered : ∀ id ∈ (compiler.noted host).table.modules.map Prod.fst,
      id ∈ (compiler.adopted host).moduleIds := by
    rcases @exists_noted_eq compiler host complete.cooperative with ⟨names, isNoted, isAdopted, _⟩
    rw [isNoted, isAdopted]
    exact fun id isListed => mem_map_id_registered.mpr (.inr isListed)
  intro error member
  rw [isErrors, Compiler.errors] at member
  simp only [List.mem_append] at member
  rcases member with ((ofAnalyzers | ofEvents) | ofTypes) | ofHooks
  · exact Store.not_isInternal_of_mem_checkAnalyzers ofAnalyzers
  · rw [resolution_eq] at ofEvents
    rcases List.mem_flatMap.mp ofEvents with ⟨event, _, isFault⟩
    exact event.not_isInternal_of_mem_faults (complete.noted compiler).closed registered isFault
  · rcases List.mem_map.mp ofTypes with ⟨_, _, rfl⟩
    rintro ⟨_, ⟨⟩⟩
  · exact not_isInternal_of_mem_generateHooks (isHooked_resolution reached.isHooked host) ofHooks

/-- An index in which a module occurs twice, a source with an event that refers to nothing, a
compilation that fails because of it, and a module registered again.  The next compilation
fails for the same reason only. -/
theorem compile_not_isInternal_again :
    let text := "\x7b\"modules\":[\x7b\"id\":\"M\",\"file\":\"m.spicy\",\"types\":[" ++
      "\x7b\"id\":\"M::U\",\"type\":\x7b\"kind\":\"unit\"\x7d\x7d]\x7d," ++
      "\x7b\"id\":\"M\",\"file\":\"n.spicy\"\x7d]\x7d"
    let table := (TypeTable.parse? text).getD .empty
    let host := Host.start table false true
    let loaded := ((start Options.usual).load ⟨"a.evt"⟩
      "on M::U -> event e();on M::V -> event f();").1
    let compiler := (loaded.compile host).2.1.addModule ⟨"M"⟩ ⟨"m.spicy"⟩
    let error : GlueError := .resolve
      (.reportedAt (.unknownUnit ⟨"M"⟩ ⟨"M::V"⟩ (.unknown ⟨"M"⟩)) ⟨⟨"a.evt"⟩, 1⟩)
    table.modules = [(⟨"M"⟩, ⟨"n.spicy"⟩)] ∧
      compiler.IsReached ∧ (loaded.compile host).2.2.IsRead ∧
      (compiler.compile (loaded.compile host).2.2).1 = .error [error] ∧ ¬ error.IsInternal := by
  intro text table host loaded compiler error
  have isListed : (TypeTable.parse? text).map TypeTable.modules =
      some [(⟨"M"⟩, ⟨"n.spicy"⟩)] := by
    simp only [text]
    decide +kernel
  rcases Option.map_eq_some_iff.mp isListed with ⟨found, isFound, isModules⟩
  have isTable : TypeTable.parse? text = some table := by
    simp only [table, isFound, Option.getD_some]
  have isSeen : ((compiler.compile (loaded.compile host).2.2).1.map fun _ => ()) =
      .error [error] := by
    simp only [error, compiler, loaded, host, table, text]
    decide +kernel
  -- From here on the table is not to be computed again.
  clear_value table
  have failed : (compiler.compile (loaded.compile host).2.2).1 = .error [error] := by
    cases isResult : (compiler.compile (loaded.compile host).2.2).1 with
    | ok output =>
        rw [isResult] at isSeen
        cases isSeen
    | error errors =>
        rw [isResult] at isSeen
        cases isSeen
        rfl
  have read : host.IsRead := .read text isTable rfl
  have reached : compiler.IsReached :=
    .addModule _ _ (.compile host read (.load _ _ (.start Options.usual)))
  rw [isFound, Option.some.injEq] at isTable
  exact ⟨isTable ▸ isModules, reached, read.compiled loaded, failed,
    compile_not_isInternal reached (read.compiled loaded) failed error List.mem_cons_self⟩

end Compiler

end AnalyzerGlue
