import Mathlib.Data.List.Forall2
import AnalyzerGlue.Proofs.Compiler.Binding
import AnalyzerGlue.Proofs.Expr.Parts

/-!
# Hooks at the end of a unit

An event is attached to the end of a unit by naming the unit, or by naming its hook `%done`.
The two ways lead to the same unit and the same hook.  The path of an event goes into nothing
else that is generated but the name of the handler, so the code is the same but for this name.
-/

namespace AnalyzerGlue

/-! ## Equal but for a name -/

/-- Expressions that are equal, except that the one may have the first name where the other has
the second.  Nodes without their parts are compared by putting the same expression in place of
each part. -/
inductive Expr.Alike (first second : QualName) : Expr → Expr → Prop where
  | name (location : Option Location) :
      Alike first second (.atom (.id first) location) (.atom (.id second) location)
  | node {tree other : Expr}
      (sameNode : tree.mapParts (fun _ => .null) = other.mapParts (fun _ => .null))
      (parts : List.Forall₂ (Alike first second) tree.parts other.parts) :
      Alike first second tree other

namespace Expr.Alike

variable {first second : QualName}

theorem refl (tree : Expr) : Alike first second tree tree := by
  induction tree using Expr.parts_induction with
  | step tree ih => exact .node rfl (List.forall₂_same.mpr ih)

theorem forall₂_refl (trees : List Expr) : List.Forall₂ (Alike first second) trees trees :=
  List.forall₂_same.mpr fun tree _ => refl tree

variable {trees others : List Expr} (parts : List.Forall₂ (Alike first second) trees others)

include parts

theorem call (callee : QualName) (location : Option Location) :
    Alike first second (.call callee trees location) (.call callee others location) :=
  .node (by simp [mapParts, parts.length_eq]) parts

theorem apply (operator : Operator) (location : Option Location) :
    Alike first second (.apply operator trees location) (.apply operator others location) :=
  .node (by simp [mapParts, parts.length_eq]) parts

theorem memberCall (receiver : Expr) (method : String) (location : Option Location) :
    Alike first second (.memberCall receiver method trees location)
      (.memberCall receiver method others location) :=
  .node (by simp [mapParts, parts.length_eq]) (.cons (refl receiver) parts)

end Expr.Alike

namespace Code

/-- Statements that are equal but for a name. -/
inductive Stmt.Alike (first second : QualName) : Stmt → Stmt → Prop where
  | same (stmt : Stmt) : Alike first second stmt stmt
  | expr {value value' : Expr} (part : value.Alike first second value') :
      Alike first second (.expr value) (.expr value')
  | ifThen {condition condition' : Expr} {body body' : List Stmt}
      (test : condition.Alike first second condition')
      (parts : List.Forall₂ (Alike first second) body body') :
      Alike first second (.ifThen condition body) (.ifThen condition' body')
  | ret {value value' : Expr} (part : value.Alike first second value') :
      Alike first second (.ret (some value)) (.ret (some value'))
  | declare {init init' : Expr} (name : String) (type : Ty)
      (part : init.Alike first second init') :
      Alike first second (.declare name type (some init)) (.declare name type (some init'))

theorem forall₂_alike_refl (first second : QualName) (stmts : List Stmt) :
    List.Forall₂ (Stmt.Alike first second) stmts stmts :=
  List.forall₂_same.mpr fun stmt _ => .same stmt

/-- Globals of two names, and hooks whose bodies are equal but for these names. -/
inductive Decl.Alike (first second : String) : Decl → Decl → Prop where
  | global (init : Expr) (linkage : Linkage) (location : Option Location) :
      Alike first second (.global ⟨first, init, linkage, location⟩)
        (.global ⟨second, init, linkage, location⟩)
  | hook (target : QualName) {body body' : List Stmt} (engine : Engine)
      (attributes : List Attribute) (location : Option Location)
      (parts : List.Forall₂ (Stmt.Alike ⟨first⟩ ⟨second⟩) body body') :
      Alike first second (.hook ⟨target, body, engine, attributes, location⟩)
        (.hook ⟨target, body', engine, attributes, location⟩)

end Code

/-- Both fail with the same error, or both succeed with results that are related. -/
def Agree {α : Type} (related : α → α → Prop) (result other : Except GlueError α) : Prop :=
  (∃ error, result = .error error ∧ other = .error error) ∨
    ∃ value value', result = .ok value ∧ other = .ok value' ∧ related value value'

/-! ## Code for events that differ in their paths -/

/-- Events that agree in everything but their paths. -/
def Event.SameButPath (event other : Event) : Prop :=
  other = { event with path := other.path }

namespace HookModule

open HostRuntime

/-- Expressions that are equal but for the handlers of two events. -/
abbrev AlikeExpr (event other : Event) : Expr → Expr → Prop :=
  Expr.Alike ⟨handlerName event⟩ ⟨handlerName other⟩

/-- Statements that are equal but for the handlers of two events. -/
abbrev AlikeStmt (event other : Event) : Code.Stmt → Code.Stmt → Prop :=
  Code.Stmt.Alike ⟨handlerName event⟩ ⟨handlerName other⟩

/-- Calls with the handler as their first argument. -/
theorem alike_call_handler (event other : Event) (name : String) (others : List Expr) :
    AlikeExpr event other (call name (handler event :: others))
      (call name (handler other :: others)) :=
  .call (.cons (.name none) (Expr.Alike.forall₂_refl others)) _ none

/-- The statements that look for a handler. -/
theorem alike_returnUnless_handler (event other : Event) :
    AlikeStmt event other (.returnUnless (call "have_handler" [handler event]))
      (.returnUnless (call "have_handler" [handler other])) := by
  refine .ifThen (.apply (.cons ?_ .nil) _ none) (Code.forall₂_alike_refl _ _ _)
  exact alike_call_handler event other "have_handler" []

variable {event other : Event} (same : event.SameButPath other)

include same

theorem argumentValue_agree (argument : Argument) :
    Agree (AlikeExpr event other) (argumentValue event argument)
      (argumentValue other argument) := by
  -- Apart from its handler an event comes in with its location only.
  have samePlace : place other = place event := by rw [same]; rfl
  have sameParse : parseExpr other argument.expression = parseExpr event argument.expression := by
    rw [same]
    rfl
  unfold argumentValue
  rw [samePlace, sameParse]
  cases provider? argument.expression with
  | some provider => exact .inr ⟨_, _, rfl, rfl, .refl _⟩
  | none =>
      simp only
      split
      · exact .inl ⟨_, rfl, rfl⟩
      · cases parseExpr event argument.expression with
        | error error => exact .inl ⟨error, rfl, rfl⟩
        | ok expr =>
            refine .inr ⟨_, _, rfl, rfl, .call (.cons (.refl _) (.cons ?_ ?_)) _ none⟩
            · exact alike_call_handler event other "event_arg_type" _
            · exact Expr.Alike.forall₂_refl _

theorem pushArguments_agree (arguments : List Argument) :
    Agree (List.Forall₂ (AlikeStmt event other)) (pushArguments event arguments)
      (pushArguments other arguments) := by
  induction arguments with
  | nil => exact .inr ⟨[], [], rfl, rfl, .nil⟩
  | cons first others ih =>
      rw [pushArguments, pushArguments]
      rcases argumentValue_agree same first with
        ⟨error, isError, isError'⟩ | ⟨value, value', isValue, isValue', alike⟩
      · exact .inl ⟨error, by rw [isError], by rw [isError']⟩
      · rw [isValue, isValue']
        rcases ih with ⟨error, isError, isError'⟩ | ⟨pushes, pushes', isPushes, isPushes', alikes⟩
        · exact .inl ⟨error, by rw [isError], by rw [isError']⟩
        · rw [isPushes, isPushes']
          refine .inr ⟨_, _, rfl, rfl, .cons (.expr ?_) alikes⟩
          exact .memberCall (.cons alike .nil) _ _ none

theorem body_agree (debug : Bool) :
    Agree (List.Forall₂ (AlikeStmt event other)) (body debug event) (body debug other) := by
  have samePlace : place other = place event := by rw [same]; rfl
  have sameArguments : other.boundArguments = event.boundArguments := by rw [same]; rfl
  have sameCondition : conditionStmts other = conditionStmts event := by rw [same]; rfl
  have sameReport : debugStmt other = debugStmt event := by rw [same]; rfl
  unfold body
  rw [samePlace, sameArguments, sameCondition, sameReport]
  cases conditionStmts event with
  | error error => exact .inl ⟨error, rfl, rfl⟩
  | ok conditions =>
      rcases pushArguments_agree same event.boundArguments with
        ⟨error, isError, isError'⟩ | ⟨pushes, pushes', isPushes, isPushes', alikes⟩
      · exact .inl ⟨error, by simp only [isError], by simp only [isError']⟩
      · simp only [isPushes, isPushes']
        refine .inr ⟨_, _, rfl, rfl,
          List.rel_append (List.rel_append (List.rel_append ?_ ?_) alikes) ?_⟩
        · exact Code.forall₂_alike_refl _ _ _
        · exact .cons (alike_returnUnless_handler event other) (Code.forall₂_alike_refl _ _ _)
        · exact .cons (.expr (alike_call_handler event other "raise_event" _)) .nil

/-- The path of an event goes into its code as the name of the handler only. -/
theorem declsOf_agree (debug : Bool) :
    Agree (List.Forall₂ (Code.Decl.Alike (handlerName event) (handlerName other)))
      (declsOf debug event) (declsOf debug other) := by
  have sameHook : other.hook = event.hook := by rw [same]
  have sameName : other.name = event.name := by rw [same]
  have samePriority : other.priority = event.priority := by rw [same]
  have sameLocation : other.location = event.location := by rw [same]
  unfold declsOf
  rw [sameHook, sameName, samePriority, sameLocation]
  cases event.hook with
  | none => exact .inl ⟨_, rfl, rfl⟩
  | some hook =>
      rcases body_agree same debug with
        ⟨error, isError, isError'⟩ | ⟨stmts, stmts', isBody, isBody', alikes⟩
      · exact .inl ⟨error, by simp only [isError], by simp only [isError']⟩
      · simp only [isBody, isBody']
        exact .inr ⟨_, _, rfl, rfl, .cons (.global _ _ _) (.cons (.hook _ _ _ _ alikes) .nil)⟩

end HookModule

/-! ## Both ways to the end of a unit -/

/-- How the hook at the end of a unit is written in a source. -/
theorem QualName.ofWritten_append_done (written : List Char) :
    ofWritten (written ++ "::%done".toList) = ⟨(ofWritten written).text ++ "::0x25_done"⟩ := by
  have isEscaped : escapePercent (written ++ "::%done".toList) =
      escapePercent written ++ "::0x25_done".toList := List.flatMap_append
  rw [ofWritten, isEscaped, String.ofList_append, String.ofList_toList]
  rfl

namespace Event

variable {table : TypeTable} {unit : QualName} {info : TypeInfo} {items : List UnitItem}

theorem target_of_declaresUnit (declared : table.DeclaresUnit unit info items) (event : Event) :
    { event with path := unit : Event }.target table = .ok ⟨unit, unit.doneHook, info, items⟩ :=
  target_eq_ok_iff.mpr (.unit declared)

/-- An event on the hook at the end of a unit refers to what an event on the unit refers to. -/
theorem target_doneHook (named : unit.isEmpty = false)
    (declared : table.DeclaresUnit unit info items) (noUnit : ¬ table.NamesUnit unit.doneHook)
    (event : Event) :
    { event with path := unit.doneHook : Event }.target table =
      .ok ⟨unit, unit.doneHook, info, items⟩ := by
  have qualifier := QualName.qualifier_doneHook named
  have refers : RefersTo table unit.doneHook
      ⟨unit.doneHook.qualifier, unit.doneHook, info, items⟩ :=
    .hook noUnit (by rw [qualifier, named]) (by rwa [qualifier])
  rw [qualifier] at refers
  exact target_eq_ok_iff.mpr refers

end Event

namespace Store

theorem getElem?_events_resolve (table : TypeTable) (store : Store) (i : Nat) :
    (store.resolve table).1.events[i]? =
      store.events[i]?.map fun event => event.settled table store.moduleIds := by
  rw [resolve_eq, List.getElem?_map]

/-- An event on a unit and an event on the hook `%done` of the unit, otherwise equal, of one
store or of two.  A written `%done` is stored with an escape.  The events are resolved to the
same unit, hook, unit type and module, with the same arguments, and what is generated for them
is the same but for the names of their handlers. -/
theorem resolve_unit_or_doneHook {table : TypeTable} {unit : QualName} {info : TypeInfo}
    {items : List UnitItem} (named : unit.isEmpty = false)
    (declared : table.DeclaresUnit unit info items)
    (noUnit : ¬ table.NamesUnit ⟨unit.text ++ "::0x25_done"⟩) {store other : Store}
    (registered : info.moduleId ∈ store.moduleIds) (registered' : info.moduleId ∈ other.moduleIds)
    {event : Event} {i j : Nat} (isFirst : store.events[i]? = some { event with path := unit })
    (isSecond : other.events[j]? = some { event with path := ⟨unit.text ++ "::0x25_done"⟩ }) :
    (∀ written, QualName.ofWritten written = unit →
      QualName.ofWritten (written ++ "::%done".toList) = ⟨unit.text ++ "::0x25_done"⟩) ∧
    ∃ first second, (store.resolve table).1.events[i]? = some first ∧
      (other.resolve table).1.events[j]? = some second ∧
      first.unit = some unit ∧ first.hook = some ⟨unit.text ++ "::0x25_done"⟩ ∧
      first.binding = some ⟨items, info.moduleId, info.modulePath, event.arguments⟩ ∧
      second.unit = first.unit ∧ second.hook = first.hook ∧ second.binding = first.binding ∧
      second.boundArguments = first.boundArguments ∧
      ∀ debug, Agree
        (List.Forall₂
          (Code.Decl.Alike (HookModule.handlerName first) (HookModule.handlerName second)))
        (HookModule.declsOf debug first) (HookModule.declsOf debug second) := by
  refine ⟨?_, ?_⟩
  · rintro written rfl
    exact QualName.ofWritten_append_done written
  rw [← QualName.doneHook_eq named] at noUnit isSecond ⊢
  have isTarget := Event.target_of_declaresUnit declared event
  have isTarget' := Event.target_doneHook named declared noUnit event
  let target : Event.Target := ⟨unit, unit.doneHook, info, items⟩
  let first : Event := ({ event with path := unit } : Event).bind target
  let second : Event := ({ event with path := unit.doneHook } : Event).bind target
  have same : first.SameButPath second := rfl
  refine ⟨first, second, ?_, ?_, rfl, rfl, rfl, rfl, rfl, rfl, rfl,
    HookModule.declsOf_agree same⟩
  · rw [getElem?_events_resolve, isFirst, Option.map_some,
      Event.settled_eq_bind isTarget registered]
  · rw [getElem?_events_resolve, isSecond, Option.map_some,
      Event.settled_eq_bind isTarget' registered']

/-- One store with an event on a unit and the same event on the hook `%done` of the unit.  The
event has a condition and two arguments, one of which the host provides. -/
theorem resolve_unit_or_doneHook_event :
    let table := (TypeTable.empty.addModule ⟨"M"⟩ ⟨"m.spicy"⟩).addType ⟨"M"⟩ ⟨"M::U"⟩ (.unit [])
      none
    let event : Event := { Event.declare ⟨"M::U"⟩ ⟨"e"⟩ ⟨⟨"a.evt"⟩, 1⟩ with
      condition := some "self.x > 1", exprs := ["self.?y", "$conn"] }
    let store : Store := { empty.addModule ⟨"M"⟩ ⟨"m.spicy"⟩ with
      events := [event, { event with path := ⟨"M::U::0x25_done"⟩ }] }
    ¬ table.NamesUnit ⟨"M::U::0x25_done"⟩ ∧
      ∃ first second, (store.resolve table).1.events[0]? = some first ∧
        (store.resolve table).1.events[1]? = some second ∧
        first.hook = some ⟨"M::U::0x25_done"⟩ ∧ second.hook = first.hook ∧
        (∃ decls, HookModule.declsOf true first = .ok decls) ∧
        Agree
          (List.Forall₂
            (Code.Decl.Alike (HookModule.handlerName first) (HookModule.handlerName second)))
          (HookModule.declsOf true first) (HookModule.declsOf true second) := by
  intro table event store
  have noUnit : ¬ table.NamesUnit ⟨"M::U::0x25_done"⟩ := by
    rintro ⟨info, items, found, _⟩
    cases found
  have declared : table.DeclaresUnit ⟨"M::U"⟩ ⟨⟨"M::U"⟩, .unit [], ⟨"M"⟩, ⟨"m.spicy"⟩, none⟩ [] :=
    ⟨rfl, rfl⟩
  have registered : (⟨"M"⟩ : QualName) ∈ store.moduleIds := by decide
  rcases @resolve_unit_or_doneHook table ⟨"M::U"⟩ _ [] (by decide) declared noUnit store store
      registered registered event 0 1 rfl rfl with
    ⟨_, first, second, isFirst, isSecond, _, isHook, _, _, sameHook, _, _, agree⟩
  have isBound : (store.resolve table).1.events[0]? =
      some (event.bind ⟨⟨"M::U"⟩, ⟨"M::U::0x25_done"⟩, _, []⟩) := rfl
  cases isFirst.symm.trans isBound
  have readCondition : Expr.parse "self.x > 1" (some ⟨⟨"a.evt"⟩, 1⟩) =
      .ok (.apply .greater [.apply .member [.atom (.id ⟨"self"⟩) (some ⟨⟨"a.evt"⟩, 1⟩),
        .atom (.member "x") (some ⟨⟨"a.evt"⟩, 1⟩)] (some ⟨⟨"a.evt"⟩, 1⟩),
        .atom (.int 1) (some ⟨⟨"a.evt"⟩, 1⟩)] (some ⟨⟨"a.evt"⟩, 1⟩)) := by decide +kernel
  have readArgument : Expr.parse "self.?y" (some ⟨⟨"a.evt"⟩, 1⟩) =
      .ok (.apply .tryMember [.atom (.id ⟨"self"⟩) (some ⟨⟨"a.evt"⟩, 1⟩),
        .atom (.member "y") (some ⟨⟨"a.evt"⟩, 1⟩)] (some ⟨⟨"a.evt"⟩, 1⟩)) := by decide +kernel
  refine ⟨noUnit, _, second, isFirst, isSecond, isHook, sameHook, ?_, agree true⟩
  refine (HookModule.exists_declsOf_iff rfl).mpr ⟨rfl, ?_, ?_⟩
  · rintro text ⟨rfl⟩
    exact ⟨_, readCondition⟩
  · have passes : event.Passes "self.?y" := .inr ⟨by decide +kernel, _, readArgument⟩
    have provided : event.Passes "$conn" := .inl (by decide)
    exact List.forall_mem_cons.mpr ⟨passes, List.forall_mem_singleton.mpr provided⟩

end Store

end AnalyzerGlue
