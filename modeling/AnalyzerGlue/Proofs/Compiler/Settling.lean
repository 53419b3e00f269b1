import AnalyzerGlue.Proofs.Compiler.Acceptance
import AnalyzerGlue.Proofs.Path.Insertion

/-!
# Resolving what has been resolved

Only what has been declared decides what resolving makes of an event.  So the map over the
events and the map over the modules that resolving is change nothing the second time.
-/

namespace AnalyzerGlue

/-- Steps that change nothing change nothing together. -/
theorem foldl_eq_self {α β : Type} {step : β → α → β} {state : β} {inputs : List α}
    (still : ∀ input ∈ inputs, step state input = state) : inputs.foldl step state = state := by
  induction inputs with
  | nil => rfl
  | cons first others ih =>
      rw [List.forall_mem_cons] at still
      rw [List.foldl_cons, still.1]
      exact ih still.2

/-! ## Events -/

namespace Event

variable (table : TypeTable) (ids : List QualName) (event : Event)

/-- Only what has been declared decides what an event refers to. -/
theorem target_settled : (event.settled table ids).target table = event.target table := by
  unfold settled
  split
  · rfl
  · split <;> rfl

theorem moduleId?_settled : (event.settled table ids).moduleId? table = event.moduleId? table := by
  rw [moduleId?, moduleId?, target_settled]

theorem location_settled : (event.settled table ids).location = event.location := by
  unfold settled
  split
  · rfl
  · split <;> rfl

theorem faults_settled : (event.settled table ids).faults table ids = event.faults table ids := by
  rw [faults, faults, target_settled]

theorem settled_settled :
    (event.settled table ids).settled table ids = event.settled table ids := by
  rw [settled, target_settled]
  unfold settled
  cases event.target table with
  | error error => rfl
  | ok target =>
      simp only
      split <;> rfl

end Event

/-! ## Modules -/

namespace GrammarModule

variable {table : TypeTable} {grammar : GrammarModule} {event : Event}

theorem attachOne_settled (ids : List QualName) :
    grammar.attachOne table (event.settled table ids) = grammar.attachOne table event := by
  rw [attachOne, attachOne, Event.moduleId?_settled, Event.location_settled]

theorem attachOne_attachOne_self :
    (grammar.attachOne table event).attachOne table event = grammar.attachOne table event := by
  by_cases attaches : event.moduleId? table = some grammar.id
  · simp [attachOne, attaches, addSource, Path.insert_insert_self]
  · simp [attachOne, attaches]

/-- A source that is recorded stays so when another one is recorded. -/
theorem attachOne_attachOne_of_eq (isAttached : grammar.attachOne table event = grammar)
    (other : Event) :
    (grammar.attachOne table other).attachOne table event = grammar.attachOne table other := by
  by_cases otherAttaches : other.moduleId? table = some grammar.id
  · by_cases attaches : event.moduleId? table = some grammar.id
    · have isThere : Path.insert event.location.file grammar.sources = grammar.sources := by
        have sameSources := congrArg sources isAttached
        simpa [attachOne, attaches, addSource] using sameSources
      simp [attachOne, attaches, otherAttaches, addSource,
        Path.insert_insert_of_insert_eq isThere]
    · simp [attachOne, attaches, otherAttaches, addSource]
  · simp only [attachOne, if_neg otherAttaches]
    exact isAttached

theorem attachOne_attach_of_eq {events : List Event}
    (isAttached : grammar.attachOne table event = grammar) :
    (grammar.attach table events).attachOne table event = grammar.attach table events := by
  induction events generalizing grammar with
  | nil => exact isAttached
  | cons first others ih => exact ih (attachOne_attachOne_of_eq isAttached first)

theorem attachOne_attach_of_mem {events : List Event} (member : event ∈ events) :
    (grammar.attach table events).attachOne table event = grammar.attach table events := by
  induction events generalizing grammar with
  | nil => cases member
  | cons first others ih =>
      rcases List.mem_cons.mp member with rfl | isOther
      · exact @attachOne_attach_of_eq table (grammar.attachOne table event) event others
          attachOne_attachOne_self
      · exact ih isOther

theorem attachOne_withOutput (code : Option Code.Module) :
    ({ grammar with output := code } : GrammarModule).attachOne table event =
      { grammar.attachOne table event with output := code } := by
  by_cases attaches : event.moduleId? table = some grammar.id
  · simp [attachOne, attaches, addSource]
  · simp [attachOne, attaches]

/-- The sources of events that have been recorded are there, also when the events have
been settled and the hook module has been noted. -/
theorem attach_settled_attach (ids : List QualName) (events : List Event)
    (code : Option Code.Module) :
    ({ grammar.attach table events with output := code } : GrammarModule).attach table
        (events.map fun event => event.settled table ids) =
      { grammar.attach table events with output := code } := by
  apply foldl_eq_self
  rw [List.forall_mem_map]
  intro event member
  rw [attachOne_settled, attachOne_withOutput, attachOne_attach_of_mem member]

end GrammarModule

/-! ## Compilations -/

namespace Compiler

variable (compiler : Compiler) (host : Host)

theorem adopted_eq :
    compiler.adopted host = compiler.store.withModules
      (Store.keepModules compiler.store.modules
        ((compiler.noted host).modules.map fun entry => .declare entry.1 entry.2)) :=
  foldl_adoptModule_eq _ _

/-- The resolved declarations with their errors, for all events at once. -/
theorem resolution_eq :
    compiler.resolution host =
      ({ compiler.adopted host with
        events := (compiler.adopted host).events.map fun event =>
          event.settled (compiler.noted host).table (compiler.adopted host).moduleIds
        modules := (compiler.adopted host).modules.map fun grammar =>
          grammar.attach (compiler.noted host).table (compiler.adopted host).events },
        (compiler.adopted host).events.flatMap fun event =>
          event.faults (compiler.noted host).table (compiler.adopted host).moduleIds) :=
  Store.resolve_eq _ _

end Compiler

end AnalyzerGlue
