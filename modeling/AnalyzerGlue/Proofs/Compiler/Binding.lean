import Mathlib.Data.List.Forall2
import AnalyzerGlue.Proofs.Compiler.Settling
import AnalyzerGlue.Proofs.QualName.Splitting

/-!
# Events behind the resolver

What can be said of each event of a store once the store has been resolved.  An event that
is resolved is bound to a declared unit of a registered module, and its hook is a hook of
this unit.  For each other event there is one error that says why.

An event with an error keeps what it had, with one exception: if the module of its unit is
not registered, then the unit and the hook have been filled in before this is noticed.
-/

namespace AnalyzerGlue

/-! ## Hooks -/

namespace QualName

theorem doneHook_eq {unit : QualName} (named : unit.isEmpty = false) :
    unit.doneHook = ⟨unit.text ++ "::0x25_done"⟩ := by
  have joined :
      "::" ++ String.ofList (percentEscape ++ ['d', 'o', 'n', 'e']) = "::0x25_done" := by
    decide
  rw [doneHook, within, if_neg (by simp [named]), String.append_assoc, joined]

/-- The hook at the end of a unit is a hook of the unit. -/
theorem qualifier_doneHook {unit : QualName} (named : unit.isEmpty = false) :
    unit.doneHook.qualifier = unit := by
  refine ((within_splits_iff named _).mpr ?_).1
  rw [String.toList_ofList]
  decide

end QualName

/-! ## Units -/

namespace TypeTable

/-- The table declares the name as a unit type with the given items. -/
def DeclaresUnit (table : TypeTable) (id : QualName) (info : TypeInfo) (items : List UnitItem) :
    Prop :=
  table.find? id = some info ∧ info.type.unit? = some items

theorem lookupUnit_eq_ok_iff {table : TypeTable} {id : QualName} {info : TypeInfo}
    {items : List UnitItem} :
    table.lookupUnit id = .ok (info, items) ↔ table.DeclaresUnit id info items := by
  unfold lookupUnit lookup DeclaresUnit
  cases table.find? id with
  | none => simp
  | some declared =>
      cases isUnit : declared.type.unit? with
      | none =>
          simp only [isUnit, reduceCtorEq, Option.some.injEq, false_iff, not_and]
          rintro rfl
          simp [isUnit]
      | some found =>
          simp only [isUnit, Except.ok.injEq, Prod.mk.injEq, Option.some.injEq]
          constructor
          · rintro ⟨rfl, rfl⟩
            exact ⟨rfl, isUnit⟩
          · rintro ⟨rfl, sameUnit⟩
            exact ⟨rfl, Option.some.inj (isUnit.symm.trans sameUnit)⟩

/-- The table declares the name as a unit type. -/
def NamesUnit (table : TypeTable) (id : QualName) : Prop :=
  ∃ info items, table.DeclaresUnit id info items

theorem not_namesUnit_of_lookupUnit_eq_error {table : TypeTable} {id : QualName}
    {reason : LookupError} (unknown : table.lookupUnit id = .error reason) :
    ¬ table.NamesUnit id := by
  rintro ⟨info, items, declared⟩
  rw [lookupUnit_eq_ok_iff.mpr declared] at unknown
  cases unknown

end TypeTable

/-! ## Events -/

namespace Event

/-- What a path refers to: the unit that it names, at its end, or else the unit that its
qualifier names, at the hook that the path names. -/
inductive RefersTo (table : TypeTable) (path : QualName) : Target → Prop where
  | unit {info : TypeInfo} {items : List UnitItem}
      (declared : table.DeclaresUnit path info items) :
      RefersTo table path ⟨path, path.doneHook, info, items⟩
  | hook {info : TypeInfo} {items : List UnitItem} (noUnit : ¬ table.NamesUnit path)
      (qualified : path.qualifier.isEmpty = false)
      (declared : table.DeclaresUnit path.qualifier info items) :
      RefersTo table path ⟨path.qualifier, path, info, items⟩

/-- Why an event is not resolved, if the modules with the given ids are registered. -/
inductive Fails (table : TypeTable) (ids : List QualName) (event : Event) : GlueError → Prop where
  | missingUnit (noUnit : ¬ table.NamesUnit event.path)
      (unqualified : event.path.qualifier.isEmpty = true) :
      Fails table ids event (.resolve (.reportedAt (.missingUnit event.path) event.location))
  | unknownUnit {reason : LookupError} (noUnit : ¬ table.NamesUnit event.path)
      (qualified : event.path.qualifier.isEmpty = false)
      (unknown : table.lookupUnit event.path.qualifier = .error reason) :
      Fails table ids event
        (.resolve (.reportedAt (.unknownUnit event.path.qualifier event.path reason)
          event.location))
  | unregistered {target : Target} (refers : RefersTo table event.path target)
      (absent : target.info.moduleId ∉ ids) :
      Fails table ids event
        (.internal (.unregisteredModule target.info.moduleId target.info.id))

variable {table : TypeTable} {ids : List QualName} {event : Event}

/-- The lookup of an event finds what its path refers to. -/
theorem target_eq_ok_iff {target : Target} :
    event.target table = .ok target ↔ RefersTo table event.path target := by
  constructor
  · intro isTarget
    unfold Event.target at isTarget
    cases isUnit : table.lookupUnit event.path with
    | ok found =>
        rw [isUnit] at isTarget
        cases isTarget
        exact .unit (TypeTable.lookupUnit_eq_ok_iff.mp isUnit)
    | error reason =>
        simp only [isUnit] at isTarget
        split at isTarget
        · cases isTarget
        · rename_i qualified
          cases isQualifier : table.lookupUnit event.path.qualifier with
          | error unknown =>
              rw [isQualifier] at isTarget
              cases isTarget
          | ok found =>
              rw [isQualifier] at isTarget
              cases isTarget
              exact .hook (TypeTable.not_namesUnit_of_lookupUnit_eq_error isUnit)
                (by simpa using qualified) (TypeTable.lookupUnit_eq_ok_iff.mp isQualifier)
  · intro refers
    cases refers with
    | unit declared => rw [Event.target, TypeTable.lookupUnit_eq_ok_iff.mpr declared]
    | hook noUnit qualified declared =>
        rw [Event.target]
        cases isUnit : table.lookupUnit event.path with
        | ok found => exact absurd ⟨_, _, TypeTable.lookupUnit_eq_ok_iff.mp isUnit⟩ noUnit
        | error reason =>
            simp only [qualified, TypeTable.lookupUnit_eq_ok_iff.mpr declared,
              Bool.false_eq_true, if_false]

theorem fails_of_target_eq_error {cause : Located ResolveError}
    (failed : event.target table = .error cause) : event.Fails table ids (.resolve cause) := by
  unfold Event.target at failed
  cases isUnit : table.lookupUnit event.path with
  | ok found =>
      rw [isUnit] at failed
      cases failed
  | error reason =>
      have noUnit := TypeTable.not_namesUnit_of_lookupUnit_eq_error isUnit
      simp only [isUnit] at failed
      split at failed
      · rename_i unqualified
        cases failed
        exact .missingUnit noUnit unqualified
      · rename_i qualified
        cases isQualifier : table.lookupUnit event.path.qualifier with
        | error unknown =>
            rw [isQualifier] at failed
            cases failed
            exact .unknownUnit noUnit (by simpa using qualified) isQualifier
        | ok found =>
            rw [isQualifier] at failed
            cases failed

/-- What resolving an event comes to: the event that is left, and the errors. -/
inductive Outcome (table : TypeTable) (ids : List QualName) (event : Event) :
    Event → List GlueError → Prop where
  | bound {target : Target} (isTarget : event.target table = .ok target)
      (registered : target.info.moduleId ∈ ids) : Outcome table ids event (event.bind target) []
  | kept {cause : Located ResolveError} (failed : event.target table = .error cause) :
      Outcome table ids event event [.resolve cause]
  | aimed {target : Target} (isTarget : event.target table = .ok target)
      (absent : target.info.moduleId ∉ ids) :
      Outcome table ids event (event.aim target)
        [.internal (.unregisteredModule target.info.moduleId target.info.id)]

theorem outcome_settled (table : TypeTable) (ids : List QualName) (event : Event) :
    Outcome table ids event (event.settled table ids) (event.faults table ids) := by
  unfold settled faults
  cases isTarget : event.target table with
  | error cause => exact .kept isTarget
  | ok target =>
      by_cases registered : target.info.moduleId ∈ ids
      · simp only [if_pos registered]
        exact .bound isTarget registered
      · simp only [if_neg registered]
        exact .aimed isTarget registered

/-! ### Resolved events -/

/-- What is known about a resolved event: the unit, the hook, what it is bound to, and the
declaration of the unit in the table. -/
structure IsBound (table : TypeTable) (ids : List QualName) (event : Event)
    (unit hook : QualName) (binding : Binding) (info : TypeInfo) : Prop where
  isUnit : event.unit = some unit
  isHook : event.hook = some hook
  isBinding : event.binding = some binding
  /-- The table declares the unit as a unit type, with the items of the binding. -/
  declared : table.DeclaresUnit unit info binding.items
  moduleId : binding.moduleId = info.moduleId
  modulePath : binding.modulePath = info.modulePath
  registered : binding.moduleId ∈ ids
  /-- The hook is one of the unit. -/
  qualifier : hook.qualifier = unit
  /-- The hook is the one at the end of the unit exactly if the path names a unit, and
  otherwise the path. -/
  place : table.NamesUnit event.path ∧ hook = ⟨event.path.text ++ "::0x25_done"⟩ ∨
    ¬ table.NamesUnit event.path ∧ hook = event.path
  /-- The arguments are the expressions in their order. -/
  expressions : binding.arguments.map Argument.expression = event.exprs
  /-- They are numbered from one on. -/
  numbers : binding.arguments.map Argument.index = List.range' 1 event.exprs.length

theorem map_index_arguments (event : Event) :
    event.arguments.map Argument.index = List.range' 1 event.exprs.length := by
  rw [arguments, List.map_map]
  exact List.zipIdx_map_snd 1 event.exprs

theorem isBound_bind {target : Target} (isTarget : event.target table = .ok target)
    (registered : target.info.moduleId ∈ ids) (named : event.path.isEmpty = false) :
    IsBound table ids (event.bind target) target.unit target.hook
      ⟨target.items, target.info.moduleId, target.info.modulePath, event.arguments⟩
      target.info := by
  have refers := target_eq_ok_iff.mp isTarget
  have declared : table.DeclaresUnit target.unit target.info target.items := by
    cases refers with
    | unit declared => exact declared
    | hook _ _ declared => exact declared
  have qualifier : target.hook.qualifier = target.unit := by
    cases refers with
    | unit => exact QualName.qualifier_doneHook named
    | hook => rfl
  have place : table.NamesUnit event.path ∧ target.hook = ⟨event.path.text ++ "::0x25_done"⟩ ∨
      ¬ table.NamesUnit event.path ∧ target.hook = event.path := by
    cases refers with
    | unit declared => exact .inl ⟨⟨_, _, declared⟩, QualName.doneHook_eq named⟩
    | hook noUnit => exact .inr ⟨noUnit, rfl⟩
  exact ⟨rfl, rfl, rfl, declared, rfl, rfl, registered, qualifier, place,
    map_expression_arguments _, map_index_arguments _⟩

namespace Outcome

variable {after : Event} {errors : List GlueError}

/-- What has been declared stays as it is. -/
theorem sameDeclared (outcome : Outcome table ids event after errors) :
    after = { event with unit := after.unit, hook := after.hook, binding := after.binding } := by
  cases outcome <;> rfl

/-- An event that has not been resolved before is resolved without an error or fails with
one. -/
theorem isResolved_cases (outcome : Outcome table ids event after errors)
    (unresolved : event.isResolved = false) :
    after.isResolved = true ∧ errors = [] ∨
      after.isResolved = false ∧ ∃ error, errors = [error] ∧ after.Fails table ids error := by
  cases outcome with
  | bound => exact .inl ⟨rfl, rfl⟩
  | kept failed => exact .inr ⟨unresolved, _, rfl, fails_of_target_eq_error failed⟩
  | aimed isTarget absent =>
      exact .inr ⟨unresolved, _, rfl, .unregistered (target_eq_ok_iff.mp isTarget) absent⟩

theorem exists_isBound (outcome : Outcome table ids event after errors)
    (unresolved : event.isResolved = false) (named : event.path.isEmpty = false)
    (resolved : after.isResolved = true) :
    ∃ unit hook binding info, IsBound table ids after unit hook binding info := by
  cases outcome with
  | bound isTarget registered => exact ⟨_, _, _, _, isBound_bind isTarget registered named⟩
  | kept => exact absurd resolved (by simp [unresolved])
  | aimed => exact absurd (unresolved.symm.trans resolved) (by simp)

/-- What an event with an error keeps. -/
theorem of_mem_errors (outcome : Outcome table ids event after errors) {error : GlueError}
    (member : error ∈ errors) :
    event.Fails table ids error ∧ after = { event with unit := after.unit, hook := after.hook } ∧
      (after = event ↔
        (∃ cause, error = .resolve cause) ∨
          ∃ target, RefersTo table event.path target ∧
            event.unit = some target.unit ∧ event.hook = some target.hook) := by
  cases outcome with
  | bound => cases member
  | kept failed =>
      rw [List.mem_singleton.mp member]
      exact ⟨fails_of_target_eq_error failed, rfl, iff_of_true rfl (.inl ⟨_, rfl⟩)⟩
  | @aimed target isTarget absent =>
      rw [List.mem_singleton.mp member]
      refine ⟨.unregistered (target_eq_ok_iff.mp isTarget) absent, rfl, ?_, ?_⟩
      · intro same
        exact .inr ⟨target, target_eq_ok_iff.mp isTarget, (congrArg Event.unit same).symm,
          (congrArg Event.hook same).symm⟩
      · rintro (⟨_, ⟨⟩⟩ | ⟨other, refers, isUnit, isHook⟩)
        -- The path refers to one unit only.
        have same : Except.ok target = Except.ok other :=
          isTarget.symm.trans (target_eq_ok_iff.mpr refers)
        cases same
        rw [aim, ← isUnit, ← isHook]

/-- A resolved event attaches to the modules with the id of its unit's module. -/
theorem attaches_iff (outcome : Outcome table ids event after errors)
    (unresolved : event.isResolved = false) {grammar : GrammarModule}
    (registered : grammar.id ∈ ids) :
    HookModule.attaches grammar after = true ↔ event.moduleId? table = some grammar.id := by
  have unbound : event.binding = none := by simpa [isResolved] using unresolved
  cases outcome with
  | bound isTarget => simp [HookModule.attaches, Event.bind, moduleId?, isTarget]
  | kept failed => simp [HookModule.attaches, unbound, moduleId?, failed]
  | @aimed target isTarget absent =>
      have apart : target.info.moduleId ≠ grammar.id := by
        rintro same
        exact absent (same ▸ registered)
      simp [HookModule.attaches, Event.aim, unbound, moduleId?, isTarget, apart]

end Outcome

end Event

/-! ## Modules -/

namespace GrammarModule

/-- The module after the sources of events have been recorded with it: it keeps its sources,
and has those of the events that attach to it and no others. -/
structure Collects (events : List Event) (grammar after : GrammarModule) : Prop where
  same : after = { grammar with sources := after.sources }
  keeps : ∀ path ∈ grammar.sources, path ∈ after.sources
  adds : ∀ event ∈ events, HookModule.attaches grammar event = true →
    event.location.file.IsIn after.sources
  only : ∀ path ∈ after.sources, path ∈ grammar.sources ∨
    ∃ event ∈ events, HookModule.attaches grammar event = true ∧ path = event.location.file

variable {table : TypeTable} {events : List Event} {event : Event} {grammar : GrammarModule}

theorem id_attachOne : (grammar.attachOne table event).id = grammar.id :=
  id_attach table [event] grammar

theorem mem_sources_attachOne_of_mem {path : Path} (member : path ∈ grammar.sources) :
    path ∈ (grammar.attachOne table event).sources := by
  unfold attachOne
  split
  · exact Path.mem_insert_of_mem member
  · exact member

theorem mem_sources_attach_of_mem {path : Path} (member : path ∈ grammar.sources) :
    path ∈ (grammar.attach table events).sources := by
  induction events generalizing grammar with
  | nil => exact member
  | cons first others ih => exact ih (mem_sources_attachOne_of_mem member)

/-- The source of an event that attaches to the module is recorded. -/
theorem isIn_sources_attach (member : event ∈ events)
    (attaches : event.moduleId? table = some grammar.id) :
    event.location.file.IsIn (grammar.attach table events).sources := by
  induction events generalizing grammar with
  | nil => cases member
  | cons first others ih =>
      rcases List.mem_cons.mp member with rfl | isOther
      · have isHere : event.location.file.IsIn (grammar.attachOne table event).sources := by
          rw [attachOne, if_pos attaches]
          exact Path.isIn_insert _ _
        have isNext : grammar.attach table (event :: others) =
            (grammar.attachOne table event).attach table others := rfl
        rcases isHere with ⟨path, isSource, same⟩
        rw [isNext]
        exact ⟨path, mem_sources_attach_of_mem isSource, same⟩
      · exact @ih (grammar.attachOne table first) isOther (by rw [id_attachOne, attaches])

/-- No other source is. -/
theorem of_mem_sources_attach {path : Path}
    (member : path ∈ (grammar.attach table events).sources) :
    path ∈ grammar.sources ∨
      ∃ event ∈ events, event.moduleId? table = some grammar.id ∧
        path = event.location.file := by
  induction events generalizing grammar with
  | nil => exact .inl member
  | cons first others ih =>
      rcases @ih (grammar.attachOne table first) member with
        isSource | ⟨event, isOther, attaches, isFile⟩
      · unfold attachOne at isSource
        split at isSource
        · rename_i attaches
          rcases Path.mem_of_mem_insert isSource with isFile | old
          · exact .inr ⟨first, List.mem_cons_self, attaches, isFile⟩
          · exact .inl old
        · exact .inl isSource
      · rw [id_attachOne] at attaches
        exact .inr ⟨event, List.mem_cons_of_mem first isOther, attaches, isFile⟩

/-- A registered module collects the sources of the events that resolving leaves. -/
theorem collects_attach {ids : List QualName} (registered : grammar.id ∈ ids)
    (unresolved : ∀ event ∈ events, event.isResolved = false) :
    Collects (events.map fun event => event.settled table ids) grammar
      (grammar.attach table events) := by
  have attaches_iff : ∀ event ∈ events,
      (HookModule.attaches grammar (event.settled table ids) = true ↔
        event.moduleId? table = some grammar.id) := fun event member =>
    (Event.outcome_settled table ids event).attaches_iff (unresolved event member) registered
  refine ⟨?_, fun path => mem_sources_attach_of_mem, ?_, ?_⟩
  · rcases exists_attach_eq table events grammar with ⟨sources, isAttached⟩
    rw [isAttached]
  · rw [List.forall_mem_map]
    intro event member attaches
    rw [Event.location_settled]
    exact isIn_sources_attach member ((attaches_iff event member).mp attaches)
  · intro path member
    rcases of_mem_sources_attach member with old | ⟨event, isEvent, attaches, isFile⟩
    · exact .inl old
    · refine .inr ⟨event.settled table ids, List.mem_map_of_mem isEvent, ?_, ?_⟩
      · exact (attaches_iff event isEvent).mpr attaches
      · rw [Event.location_settled, isFile]

end GrammarModule

/-! ## Stores -/

namespace Store

/-- Each event that is not resolved has one error, in the order of the events. -/
theorem forall₂_fails {table : TypeTable} {ids : List QualName} {events : List Event}
    (unresolved : ∀ event ∈ events, event.isResolved = false) :
    List.Forall₂ (fun event error => event.Fails table ids error)
      ((events.map fun event => event.settled table ids).filter fun event => !event.isResolved)
      (events.flatMap fun event => event.faults table ids) := by
  induction events with
  | nil => exact .nil
  | cons first others ih =>
      rw [List.forall_mem_cons] at unresolved
      rw [List.map_cons, List.flatMap_cons]
      rcases (Event.outcome_settled table ids first).isResolved_cases unresolved.1 with
        ⟨resolved, noFaults⟩ | ⟨stays, error, isFault, fails⟩
      · rw [List.filter_cons_of_neg (by simp [resolved]), noFaults, List.nil_append]
        exact ih unresolved.2
      · rw [List.filter_cons_of_pos (by simp [stays]), isFault, List.singleton_append]
        exact .cons fails (ih unresolved.2)

/-- What resolving guarantees, for events that have not been resolved and have a path.  What
has been declared stays as it is.  There is one error for each event that is not resolved,
in their order.  Each other event is bound to a unit of a registered module, and the modules
have the sources of the events that are bound to them beside those they had. -/
theorem resolve_guarantees (table : TypeTable) (store : Store)
    (declared : ∀ event ∈ store.events, event.isResolved = false ∧ event.path.isEmpty = false) :
    let after := (store.resolve table).1
    List.Forall₂
        (fun event settled => settled =
          { event with unit := settled.unit, hook := settled.hook, binding := settled.binding })
        store.events after.events ∧
      List.Forall₂ (fun event error => event.Fails table store.moduleIds error)
        (after.events.filter fun event => !event.isResolved) (store.resolve table).2 ∧
      (∀ event ∈ after.events, event.isResolved = true →
        ∃ unit hook binding info,
          event.IsBound table store.moduleIds unit hook binding info) ∧
      List.Forall₂ (GrammarModule.Collects after.events) store.modules after.modules := by
  have unresolved : ∀ event ∈ store.events, event.isResolved = false :=
    fun event member => (declared event member).1
  rw [resolve_eq]
  refine ⟨?_, forall₂_fails unresolved, ?_, ?_⟩
  · rw [List.forall₂_map_right_iff, List.forall₂_same]
    exact fun event _ => (Event.outcome_settled table _ event).sameDeclared
  · rw [List.forall_mem_map]
    intro event member
    exact (Event.outcome_settled table _ event).exists_isBound (unresolved event member)
      (declared event member).2
  · rw [List.forall₂_map_right_iff, List.forall₂_same]
    exact fun grammar member =>
      GrammarModule.collects_attach (List.mem_map_of_mem member) unresolved

/-- An event on a unit, one on a hook of the unit, and one on a name that is no unit.  The
first two are bound and the third has an error. -/
theorem resolve_guarantees_unit_and_hook :
    let location : Location := ⟨⟨"a.evt"⟩, 1⟩
    let table := (TypeTable.empty.addModule ⟨"M"⟩ ⟨"m.spicy"⟩).addType ⟨"M"⟩ ⟨"M::U"⟩ (.unit [])
      none
    let store : Store := { empty.addModule ⟨"M"⟩ ⟨"m.spicy"⟩ with
      events := [.declare ⟨"M::U"⟩ ⟨"e"⟩ location, .declare ⟨"M::U::x"⟩ ⟨"e"⟩ location,
        .declare ⟨"U"⟩ ⟨"e"⟩ location] }
    (∀ event ∈ store.events, event.isResolved = false ∧ event.path.isEmpty = false) ∧
      (store.resolve table).1.events.map Event.isResolved = [true, true, false] ∧
      (store.resolve table).2 = [.resolve (.reportedAt (.missingUnit ⟨"U"⟩) location)] ∧
      ∀ event ∈ (store.resolve table).1.events, event.isResolved = true →
        ∃ unit hook binding info,
          event.IsBound table store.moduleIds unit hook binding info := by
  intro location table store
  have declared : ∀ event ∈ store.events,
      event.isResolved = false ∧ event.path.isEmpty = false := by
    simp [store, Event.declare, Event.isResolved, QualName.isEmpty]
  exact ⟨declared, by decide +kernel, by decide +kernel,
    (resolve_guarantees table store declared).2.2.1⟩

/-- What becomes of the events with errors, of whatever store.  All that such an event had
is kept but for its unit and its hook, and these are kept too if no unit was found.  If one
was found in a module that is not registered, they are kept only if they were the unit and
the hook that were found. -/
theorem resolve_failed_events (table : TypeTable) (store : Store) :
    (store.resolve table).2 =
        store.events.flatMap (fun event => event.faults table store.moduleIds) ∧
      List.Forall₂
        (fun event after => ∀ error ∈ event.faults table store.moduleIds,
          event.Fails table store.moduleIds error ∧
          after = { event with unit := after.unit, hook := after.hook } ∧
          (after = event ↔
            (∃ cause, error = .resolve cause) ∨
              ∃ target, Event.RefersTo table event.path target ∧
                event.unit = some target.unit ∧ event.hook = some target.hook))
        store.events (store.resolve table).1.events := by
  rw [resolve_eq]
  refine ⟨rfl, ?_⟩
  rw [List.forall₂_map_right_iff, List.forall₂_same]
  exact fun event _ error member => (Event.outcome_settled table _ event).of_mem_errors member

/-- An event whose unit is in a module that is not registered has a unit and a hook
afterwards, though it has an error. -/
theorem resolve_fills_failed_event :
    let event := Event.declare ⟨"M::U"⟩ ⟨"e"⟩ ⟨⟨"a.evt"⟩, 1⟩
    let table := (TypeTable.empty.addModule ⟨"M"⟩ ⟨"m.spicy"⟩).addType ⟨"M"⟩ ⟨"M::U"⟩ (.unit [])
      none
    let result := Store.resolve table { empty with events := [event] }
    result.2 = [.internal (.unregisteredModule ⟨"M"⟩ ⟨"M::U"⟩)] ∧
      result.1.events =
        [{ event with unit := some ⟨"M::U"⟩, hook := some ⟨"M::U::0x25_done"⟩ }] ∧
      result.1.events ≠ [event] := by
  intro event table result
  have isEvents : result.1.events =
      [{ event with unit := some ⟨"M::U"⟩, hook := some ⟨"M::U::0x25_done"⟩ }] := by rfl
  refine ⟨by rfl, isEvents, fun same => ?_⟩
  rw [isEvents] at same
  exact absurd (congrArg Event.unit (List.head_eq_of_cons_eq same)) (by simp [event, Event.declare])

end Store

end AnalyzerGlue
