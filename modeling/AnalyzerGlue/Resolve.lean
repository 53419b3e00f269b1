import AnalyzerGlue.Declaration.Store
import AnalyzerGlue.GlueError

/-!
# Resolving declarations

An event names either a unit, and then it is raised when the unit has been
parsed, or a hook of a unit.  Resolving looks the unit up among the declared
types and notes which glue sources attach to the module of the unit.

Errors are collected, one for each event that is not resolved, and do not keep
other events from being resolved.
-/

namespace AnalyzerGlue

namespace Event

/-- What an event refers to. -/
structure Target where
  unit : QualName
  hook : QualName
  info : TypeInfo
  items : List UnitItem

/-- Finds the unit that an event refers to: the path itself, or else its
qualifier. -/
def target (table : TypeTable) (event : Event) : Except (Located ResolveError) Target :=
  match table.lookupUnit event.path with
  | .ok (info, items) => .ok ⟨event.path, event.path.doneHook, info, items⟩
  | .error _ =>
      let unit := event.path.qualifier
      if unit.isEmpty then .error (.reportedAt (.missingUnit event.path) event.location)
      else
        match table.lookupUnit unit with
        | .ok (info, items) => .ok ⟨unit, event.path, info, items⟩
        | .error reason =>
            .error (.reportedAt (.unknownUnit unit event.path reason) event.location)

/-- The event with its unit and hook filled in. -/
def aim (event : Event) (target : Target) : Event :=
  { event with unit := some target.unit, hook := some target.hook }

/-- The event with all that is known about its unit filled in, and its arguments
prepared. -/
def bind (event : Event) (target : Target) : Event :=
  { event.aim target with
    binding := some ⟨target.items, target.info.moduleId, target.info.modulePath,
      event.arguments⟩ }

end Event

namespace Store

/-- Resolves an event.  The unit and the hook are filled in also if the module
of the unit turns out not to be registered. -/
def resolveEvent (table : TypeTable) (store : Store) (event : Event) :
    Event × Store × List GlueError :=
  match event.target table with
  | .error error => (event, store, [.resolve error])
  | .ok target =>
      let moduleId := target.info.moduleId
      match store.module? moduleId with
      | none =>
          (event.aim target, store, [.internal (.unregisteredModule moduleId target.info.id)])
      | some _ =>
          (event.bind target,
            store.updateModule moduleId fun grammar => grammar.addSource event.location.file,
            [])

/-- Resolves some events in turn. -/
def resolveEvents (table : TypeTable) (store : Store) :
    List Event → List Event × Store × List GlueError
  | [] => ([], store, [])
  | first :: others =>
      let (event, store, errors) := store.resolveEvent table first
      let (events, store, more) := resolveEvents table store others
      (event :: events, store, errors ++ more)

/-- Resolves the events of a store. -/
def resolve (table : TypeTable) (store : Store) : Store × List GlueError :=
  let (events, store, errors) := resolveEvents table store store.events
  ({ store with events := events }, errors)

/-! ## Units of analyzers -/

/-- An error if a unit of an analyzer is given and is not a declared unit. -/
def checkUnit (table : TypeTable) (sort name : String) (location : Location) :
    Option QualName → List GlueError
  | none => []
  | some unit =>
      match table.lookupUnit unit with
      | .ok _ => []
      | .error reason => [.resolve (.reportedAt (.analyzerUnit sort name reason) location)]

/-- The errors about the units of analyzers.  A unit for both directions of a
protocol is looked up once. -/
def checkAnalyzers (table : TypeTable) (store : Store) : List GlueError :=
  (store.protocols.flatMap fun analyzer =>
    let check := checkUnit table "protocol" analyzer.name analyzer.location
    check analyzer.originator ++
      if analyzer.responder = analyzer.originator then [] else check analyzer.responder) ++
  (store.files.flatMap fun analyzer =>
    checkUnit table "file" analyzer.name analyzer.location analyzer.unit) ++
  store.packets.flatMap fun analyzer =>
    checkUnit table "packet" analyzer.name analyzer.location analyzer.unit

end Store

end AnalyzerGlue
