import AnalyzerGlue.Compiler

/-!
# Resolving as a whole

The steps of resolving each change one thing.  Adopting the modules of the host adds
those that are not registered yet; resolving an event fills in what it refers to and
records its source with one module.  Here each step is described for all declarations
of a store at once.

Events that cannot be resolved do not keep others from being resolved.  What resolving
makes of an event, and which error it finds, depends on the event, the table and the ids of
the registered modules only.  So resolving a store is a map over its events and a map over
its modules, whatever errors there are, and there are none exactly if all events refer to
units of registered modules.
-/

namespace AnalyzerGlue

/-! ## Registered modules -/

/-- An entry with a new key goes to the end. -/
theorem upsert_of_not_mem {α κ : Type} [DecidableEq κ] {key : α → κ} {entry : α}
    {entries : List α} (fresh : key entry ∉ entries.map key) :
    upsert key entry entries = entries ++ [entry] := by
  induction entries with
  | nil => rfl
  | cons first others ih =>
      rw [List.map_cons, List.mem_cons, not_or] at fresh
      rw [upsert, if_neg fun same => fresh.1 same.symm, ih fresh.2, List.cons_append]

namespace Store

/-- The ids of the registered modules. -/
def moduleIds (store : Store) : List QualName :=
  store.modules.map GrammarModule.id

theorem isSome_module?_iff {store : Store} {id : QualName} :
    (store.module? id).isSome = true ↔ id ∈ store.moduleIds := by
  simp [module?, findKey?, moduleIds]

/-- Adds grammar modules in turn, each unless its id is registered. -/
def keepModules (modules added : List GrammarModule) : List GrammarModule :=
  added.foldl keepModule modules

/-- The store with other modules. -/
def withModules (store : Store) (modules : List GrammarModule) : Store :=
  { store with modules := modules }

theorem keepModule_eq (modules : List GrammarModule) (added : GrammarModule) :
    keepModule modules added =
      if added.id ∈ modules.map GrammarModule.id then modules else modules ++ [added] := by
  have same : (modules.any fun grammar => grammar.id == added.id) = true ↔
      added.id ∈ modules.map GrammarModule.id := by
    simp
  unfold keepModule
  simp only [same]

/-- Modules are kept by their ids. -/
theorem mem_map_id_keepModules {modules added : List GrammarModule} {id : QualName} :
    id ∈ (keepModules modules added).map GrammarModule.id ↔
      id ∈ modules.map GrammarModule.id ∨ id ∈ added.map GrammarModule.id := by
  induction added generalizing modules with
  | nil => simp [keepModules]
  | cons first others ih =>
      have isKept : id ∈ (keepModule modules first).map GrammarModule.id ↔
          id ∈ modules.map GrammarModule.id ∨ id = first.id := by
        rw [keepModule_eq]
        split
        · rename_i registered
          constructor
          · exact .inl
          · rintro (old | rfl)
            · exact old
            · exact registered
        · simp
      have step : keepModules modules (first :: others) =
          keepModules (keepModule modules first) others := rfl
      rw [step, ih, isKept, List.map_cons, List.mem_cons, or_assoc]

end Store

namespace Compiler

theorem adoptModule_eq (store : Store) (entry : QualName × Path) :
    adoptModule store entry =
      store.withModules (Store.keepModule store.modules (.declare entry.1 entry.2)) := by
  have isId : (GrammarModule.declare entry.1 entry.2).id = entry.1 := rfl
  rw [Store.keepModule_eq, isId]
  unfold adoptModule
  cases found : store.module? entry.1 with
  | some grammar =>
      have registered : entry.1 ∈ store.modules.map GrammarModule.id :=
        Store.isSome_module?_iff.mp (by rw [found]; rfl)
      rw [if_pos registered]
      rfl
  | none =>
      have fresh : entry.1 ∉ store.modules.map GrammarModule.id := fun registered => by
        have isSome := Store.isSome_module?_iff.mpr registered
        rw [found] at isSome
        cases isSome
      rw [if_neg fresh]
      exact congrArg store.withModules (upsert_of_not_mem fresh)

/-- The modules of the host are added behind those that are registered. -/
theorem foldl_adoptModule_eq (store : Store) (entries : List (QualName × Path)) :
    entries.foldl adoptModule store =
      store.withModules (Store.keepModules store.modules
        (entries.map fun entry => .declare entry.1 entry.2)) := by
  induction entries generalizing store with
  | nil => rfl
  | cons entry entries ih =>
      rw [List.foldl_cons, ih, adoptModule_eq]
      rfl

end Compiler

/-! ## Units of analyzers -/

namespace Store

/-- The units that analyzers name. -/
def analyzerUnits (store : Store) : List QualName :=
  (store.protocols.flatMap fun analyzer =>
    analyzer.originator.toList ++ analyzer.responder.toList) ++
  (store.files.flatMap fun analyzer => analyzer.unit.toList) ++
  store.packets.flatMap fun analyzer => analyzer.unit.toList

theorem checkUnit_eq_nil_iff {table : TypeTable} {sort name : String} {location : Location}
    {unit : Option QualName} :
    checkUnit table sort name location unit = [] ↔
      ∀ named ∈ unit.toList, ∃ found, table.lookupUnit named = .ok found := by
  cases unit with
  | none => simp [checkUnit]
  | some named =>
      simp only [checkUnit, Option.toList_some, List.mem_singleton, forall_eq]
      cases table.lookupUnit named with
      | ok found => simp
      | error reason => simp

/-- The analyzers are without errors exactly if all their units are declared. -/
theorem checkAnalyzers_eq_nil_iff {table : TypeTable} {store : Store} :
    store.checkAnalyzers table = [] ↔
      ∀ unit ∈ store.analyzerUnits, ∃ found, table.lookupUnit unit = .ok found := by
  have bothDirections : ∀ analyzer : ProtocolAnalyzer,
      checkUnit table "protocol" analyzer.name analyzer.location analyzer.originator ++
          (if analyzer.responder = analyzer.originator then []
            else checkUnit table "protocol" analyzer.name analyzer.location analyzer.responder) =
            [] ↔
        ∀ unit ∈ analyzer.originator.toList ++ analyzer.responder.toList,
          ∃ found, table.lookupUnit unit = .ok found := by
    intro analyzer
    rw [List.append_eq_nil_iff, checkUnit_eq_nil_iff, List.forall_mem_append]
    split
    · rename_i same
      rw [same]
      exact ⟨fun known => ⟨known.1, known.1⟩, fun known => ⟨known.1, rfl⟩⟩
    · rw [checkUnit_eq_nil_iff]
  rw [checkAnalyzers, analyzerUnits, List.append_eq_nil_iff, List.append_eq_nil_iff,
    List.forall_mem_append, List.forall_mem_append]
  simp only [List.flatMap_eq_nil_iff, List.forall_mem_flatMap, bothDirections,
    checkUnit_eq_nil_iff]

end Store

/-! ## Events -/

namespace Event

/-- The module of the unit that an event refers to. -/
def moduleId? (table : TypeTable) (event : Event) : Option QualName :=
  match event.target table with
  | .ok target => some target.info.moduleId
  | .error _ => none

/-- The event as resolving leaves it, if the modules with the given ids are registered. -/
def settled (table : TypeTable) (ids : List QualName) (event : Event) : Event :=
  match event.target table with
  | .error _ => event
  | .ok target =>
      if target.info.moduleId ∈ ids then event.bind target else event.aim target

/-- The errors that resolving the event finds. -/
def faults (table : TypeTable) (ids : List QualName) (event : Event) : List GlueError :=
  match event.target table with
  | .error error => [.resolve error]
  | .ok target =>
      if target.info.moduleId ∈ ids then []
      else [.internal (.unregisteredModule target.info.moduleId target.info.id)]

/-- The event refers to a unit of one of the modules with the given ids. -/
def IsPlaced (table : TypeTable) (ids : List QualName) (event : Event) : Prop :=
  ∃ target, event.target table = .ok target ∧ target.info.moduleId ∈ ids

section

variable {table : TypeTable} {ids : List QualName} {event : Event} {target : Target}

theorem moduleId?_of_target (isTarget : event.target table = .ok target) :
    event.moduleId? table = some target.info.moduleId := by
  rw [moduleId?, isTarget]

theorem settled_eq_bind (isTarget : event.target table = .ok target)
    (registered : target.info.moduleId ∈ ids) : event.settled table ids = event.bind target := by
  simp only [settled, isTarget, if_pos registered]

theorem faults_eq_nil_iff : event.faults table ids = [] ↔ event.IsPlaced table ids := by
  unfold faults IsPlaced
  cases event.target table with
  | error error => simp
  | ok target => simp

end

/-- An event refers to its path, or else to the qualifier of its path. -/
theorem exists_target_iff {table : TypeTable} {event : Event} {property : TypeInfo → Prop} :
    (∃ target, event.target table = .ok target ∧ property target.info) ↔
      ∃ info items,
        (table.lookupUnit event.path = .ok (info, items) ∨
          (∀ found, table.lookupUnit event.path ≠ .ok found) ∧
            event.path.qualifier.isEmpty = false ∧
            table.lookupUnit event.path.qualifier = .ok (info, items)) ∧
        property info := by
  unfold target
  rcases table.lookupUnit event.path with reason | ⟨info, items⟩
  · simp only
    cases isEmpty : event.path.qualifier.isEmpty with
    | true => simp
    | false =>
        simp only [Bool.false_eq_true, if_false]
        rcases table.lookupUnit event.path.qualifier with reason | ⟨info, items⟩
        · simp
        · constructor
          · rintro ⟨_, ⟨⟩, holds⟩
            exact ⟨info, items, .inr ⟨by simp, trivial, rfl⟩, holds⟩
          · rintro ⟨_, _, isUnit | ⟨_, _, isUnit⟩, holds⟩
            · cases isUnit
            · cases isUnit
              exact ⟨_, rfl, holds⟩
  · constructor
    · rintro ⟨_, ⟨⟩, holds⟩
      exact ⟨info, items, .inl rfl, holds⟩
    · rintro ⟨_, _, isUnit | ⟨fails, _⟩, holds⟩
      · cases isUnit
        exact ⟨_, rfl, holds⟩
      · exact absurd rfl (fails _)

theorem isPlaced_iff {table : TypeTable} {ids : List QualName} {event : Event} :
    event.IsPlaced table ids ↔
      ∃ info items,
        (table.lookupUnit event.path = .ok (info, items) ∨
          (∀ found, table.lookupUnit event.path ≠ .ok found) ∧
            event.path.qualifier.isEmpty = false ∧
            table.lookupUnit event.path.qualifier = .ok (info, items)) ∧
        info.moduleId ∈ ids :=
  @exists_target_iff table event fun info => info.moduleId ∈ ids

end Event

namespace GrammarModule

/-- The module with the source of an event recorded, if the event attaches to it. -/
def attachOne (table : TypeTable) (grammar : GrammarModule) (event : Event) : GrammarModule :=
  if event.moduleId? table = some grammar.id then grammar.addSource event.location.file
  else grammar

/-- The module with the sources of all events recorded that attach to it. -/
def attach (table : TypeTable) (events : List Event) (grammar : GrammarModule) : GrammarModule :=
  events.foldl (attachOne table) grammar

section

variable (table : TypeTable) (events : List Event) (grammar : GrammarModule)

theorem attachOne_eq (event : Event) :
    ∃ sources, attachOne table grammar event = { grammar with sources := sources } := by
  unfold attachOne
  split
  · exact ⟨_, rfl⟩
  · exact ⟨grammar.sources, rfl⟩

/-- Attaching changes the sources of a module only. -/
theorem exists_attach_eq :
    ∃ sources, grammar.attach table events = { grammar with sources := sources } := by
  induction events generalizing grammar with
  | nil => exact ⟨grammar.sources, rfl⟩
  | cons event events ih =>
      rcases attachOne_eq table grammar event with ⟨one, isOne⟩
      rcases ih { grammar with sources := one } with ⟨sources, isAttached⟩
      refine ⟨sources, ?_⟩
      rw [attach, List.foldl_cons, isOne]
      exact isAttached

@[simp]
theorem id_attach : (grammar.attach table events).id = grammar.id := by
  rcases exists_attach_eq table events grammar with ⟨sources, isAttached⟩
  rw [isAttached]

@[simp]
theorem file_attach : (grammar.attach table events).file = grammar.file := by
  rcases exists_attach_eq table events grammar with ⟨sources, isAttached⟩
  rw [isAttached]

end

theorem insert_ne_nil (path : Path) (paths : List Path) : Path.insert path paths ≠ [] := by
  cases paths with
  | nil => simp [Path.insert]
  | cons first rest =>
      unfold Path.insert
      split <;> simp

/-- A module has sources if it had some or an event attaches to it. -/
theorem sources_attach_eq_nil_iff {table : TypeTable} {events : List Event}
    {grammar : GrammarModule} :
    (grammar.attach table events).sources = [] ↔
      grammar.sources = [] ∧ ∀ event ∈ events, event.moduleId? table ≠ some grammar.id := by
  induction events generalizing grammar with
  | nil => simp [attach]
  | cons event events ih =>
      have isNext : grammar.attach table (event :: events) =
          (grammar.attachOne table event).attach table events := rfl
      rw [isNext, ih, List.forall_mem_cons, attachOne]
      split
      · rename_i attaches
        simp [attaches, addSource, insert_ne_nil]
      · rename_i detached
        simp [detached]

end GrammarModule

namespace Store

variable {table : TypeTable} {store : Store} {event : Event}

theorem map_id_attachOne (modules : List GrammarModule) :
    (modules.map fun grammar => grammar.attachOne table event).map GrammarModule.id =
      modules.map GrammarModule.id := by
  rw [List.map_map]
  refine List.map_congr_left fun grammar _ => ?_
  exact grammar.id_attach table [event]

/-- An event records no source if its unit is in no registered module. -/
theorem map_attachOne_of_not_mem
    (apart : ∀ id ∈ event.moduleId? table, id ∉ store.moduleIds) :
    store.withModules (store.modules.map fun grammar => grammar.attachOne table event) =
      store := by
  have isSame : ∀ grammar ∈ store.modules, grammar.attachOne table event = grammar := by
    intro grammar member
    rw [GrammarModule.attachOne, if_neg]
    intro attaches
    exact apart grammar.id attaches (List.mem_map_of_mem member)
  rw [withModules, List.map_congr_left isSame, List.map_id']

theorem resolveEvent_eq :
    store.resolveEvent table event =
      (event.settled table store.moduleIds,
        store.withModules (store.modules.map fun grammar => grammar.attachOne table event),
        event.faults table store.moduleIds) := by
  rw [resolveEvent, Event.settled, Event.faults]
  cases isTarget : event.target table with
  | error error =>
      have noModule : ∀ id ∈ event.moduleId? table, id ∉ store.moduleIds := by
        simp [Event.moduleId?, isTarget]
      rw [map_attachOne_of_not_mem noModule]
  | ok target =>
      have isModule := Event.moduleId?_of_target isTarget
      by_cases registered : target.info.moduleId ∈ store.moduleIds
      · rcases Option.isSome_iff_exists.mp (isSome_module?_iff.mpr registered) with
          ⟨grammar, isGrammar⟩
        have isUpdated : ∀ grammar : GrammarModule, grammar.attachOne table event =
            if grammar.id = target.info.moduleId then grammar.addSource event.location.file
            else grammar := by
          intro grammar
          simp only [GrammarModule.attachOne, isModule, Option.some.injEq, eq_comm]
        simp only [isGrammar, if_pos registered, isUpdated]
        rfl
      · have isAbsent : store.module? target.info.moduleId = none := by
          rwa [← Option.not_isSome_iff_eq_none, isSome_module?_iff]
        have apart : ∀ id ∈ event.moduleId? table, id ∉ store.moduleIds := by
          rw [isModule]
          rintro _ ⟨rfl⟩
          exact registered
        simp only [isAbsent, if_neg registered, map_attachOne_of_not_mem apart]

/-- Resolving events is a map over the events and one over the modules. -/
theorem resolveEvents_eq (events : List Event) :
    resolveEvents table store events =
      (events.map fun event => event.settled table store.moduleIds,
        store.withModules (store.modules.map fun grammar => grammar.attach table events),
        events.flatMap fun event => event.faults table store.moduleIds) := by
  induction events generalizing store with
  | nil => simp [resolveEvents, GrammarModule.attach, withModules]
  | cons first others ih =>
      have sameIds : (store.withModules
          (store.modules.map fun grammar => grammar.attachOne table first)).moduleIds =
            store.moduleIds := map_id_attachOne store.modules
      rw [resolveEvents, resolveEvent_eq]
      simp only [ih, sameIds]
      simp only [withModules, List.map_map, List.map_cons, List.flatMap_cons]
      rfl

theorem resolve_eq (table : TypeTable) (store : Store) :
    store.resolve table =
      ({ store with
        events := store.events.map fun event => event.settled table store.moduleIds
        modules := store.modules.map fun grammar => grammar.attach table store.events },
        store.events.flatMap fun event => event.faults table store.moduleIds) := by
  rw [resolve, resolveEvents_eq]
  rfl

/-- Events are resolved without errors exactly if all of them are placed. -/
theorem resolve_errors_eq_nil_iff :
    (store.resolve table).2 = [] ↔
      ∀ event ∈ store.events, event.IsPlaced table store.moduleIds := by
  simp only [resolve_eq, List.flatMap_eq_nil_iff, Event.faults_eq_nil_iff]

end Store

end AnalyzerGlue
