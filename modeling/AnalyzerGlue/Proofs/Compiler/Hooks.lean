import Mathlib.Data.List.Forall2
import AnalyzerGlue.Proofs.Compiler.Resolution

/-!
# What is generated for events

A hook collects the values of the arguments of its event one after the other.  It is
generated exactly if the event has a hook and the texts of its condition and arguments
can be read; the hook module of a grammar module then has the declarations of all
events that attach to it, in order.
-/

namespace AnalyzerGlue

/-! ## Texts of events -/

namespace Event

/-- The text can be read as an expression. -/
def Parses (event : Event) (text : String) : Prop :=
  ∃ expr, Expr.parse text (some event.location) = .ok expr

/-- The arguments that the host provides. -/
def reservedTexts : List String :=
  ["$conn", "$file", "$packet", "$is_orig"]

/-- The text stands for something that the host provides, or else is not reserved and
can be read. -/
def Passes (event : Event) (text : String) : Prop :=
  text ∈ reservedTexts ∨ (text.startsWith "$" = false ∧ event.Parses text)

/-- The condition and all arguments can be read. -/
def IsExpressible (event : Event) : Prop :=
  (∀ text ∈ event.condition, event.Parses text) ∧ ∀ text ∈ event.exprs, event.Passes text

theorem map_expression_arguments (event : Event) :
    event.arguments.map Argument.expression = event.exprs := by
  rw [arguments, List.map_map]
  exact List.zipIdx_map_fst 1 event.exprs

theorem forall_mem_arguments_iff {event : Event} {property : String → Prop} :
    (∀ argument ∈ event.arguments, property argument.expression) ↔
      ∀ text ∈ event.exprs, property text := by
  rw [← map_expression_arguments event, List.forall_mem_map]

end Event

namespace HookModule

open HostRuntime

variable {debug : Bool} {event : Event}

/-! ## Arguments and conditions -/

theorem isSome_provider?_iff {text : String} :
    (provider? text).isSome = true ↔ text ∈ Event.reservedTexts := by
  unfold provider?
  split <;> simp_all [Event.reservedTexts]

theorem exists_argumentValue_iff {argument : Argument} :
    (∃ value, argumentValue event argument = .ok value) ↔
      event.Passes argument.expression := by
  unfold argumentValue Event.Passes
  rw [← isSome_provider?_iff]
  cases provider? argument.expression with
  | some provider => simp
  | none =>
      have isReserved : argument.expression.startsWith "$" = argument.isReserved := rfl
      simp only [isReserved, parseExpr, Event.Parses]
      cases argument.isReserved with
      | true => simp
      | false =>
          cases Expr.parse argument.expression (some event.location) with
          | ok expr => simp
          | error error => simp

/-- A statement that adds a value to the arguments. -/
def push (value : Expr) : Code.Stmt :=
  .expr (.memberCall (.ofName ⟨"args"⟩) "push_back" [value] none)

/-- The arguments are collected one after the other. -/
theorem pushArguments_eq_ok_iff {arguments : List Argument} {pushes : List Code.Stmt} :
    pushArguments event arguments = .ok pushes ↔
      ∃ values, List.Forall₂ (fun argument value => argumentValue event argument = .ok value)
        arguments values ∧ pushes = values.map push := by
  induction arguments generalizing pushes with
  | nil =>
      constructor
      · rintro ⟨⟩
        exact ⟨[], .nil, rfl⟩
      · rintro ⟨values, related, rfl⟩
        cases related
        rfl
  | cons first others ih =>
      constructor
      · intro collected
        rw [pushArguments] at collected
        split at collected
        · cases collected
        rename_i value isValue
        split at collected
        · cases collected
        rename_i more isMore
        cases collected
        rcases ih.mp isMore with ⟨values, related, rfl⟩
        exact ⟨value :: values, .cons isValue related, rfl⟩
      · rintro ⟨_, related, rfl⟩
        cases related with
        | cons isValue related =>
            rw [pushArguments, isValue]
            simp only [ih.mpr ⟨_, related, rfl⟩]
            rfl

theorem exists_pushArguments_iff {arguments : List Argument} :
    (∃ pushes, pushArguments event arguments = .ok pushes) ↔
      ∀ argument ∈ arguments, event.Passes argument.expression := by
  simp only [← exists_argumentValue_iff]
  induction arguments with
  | nil => simp [pushArguments]
  | cons first others ih =>
      rw [List.forall_mem_cons, ← ih, pushArguments]
      cases argumentValue event first with
      | error error => simp
      | ok value =>
          cases pushArguments event others with
          | error error => simp
          | ok pushes => simp

theorem exists_conditionStmts_iff :
    (∃ stmts, conditionStmts event = .ok stmts) ↔ ∀ text ∈ event.condition, event.Parses text := by
  unfold conditionStmts
  cases event.condition with
  | none => simp
  | some condition =>
      simp only [parseExpr, Event.Parses, Option.mem_def, Option.some.injEq, forall_eq']
      cases Expr.parse condition (some event.location) with
      | ok expr => simp
      | error error => simp

/-! ## Hooks -/

theorem body_eq_ok_iff {stmts : List Code.Stmt} :
    body debug event = .ok stmts ↔
      ∃ conditions pushes, conditionStmts event = .ok conditions ∧
        pushArguments event event.boundArguments = .ok pushes ∧
        stmts = conditions ++ (if debug then [debugStmt event] else []) ++
          [.returnUnless (call "have_handler" [handler event]),
            .declare "args" (.vector (.named (rt "Val"))) none] ++
          pushes ++
          [.expr (call "raise_event"
            [handler event, .move (.ofName ⟨"args"⟩) none, place event])] := by
  unfold body
  cases conditionStmts event with
  | error error => simp
  | ok conditions =>
      cases pushArguments event event.boundArguments with
      | error error => simp
      | ok pushes => simp [eq_comm]

/-- For an event whose arguments are its expressions, declarations are generated exactly if
it has a hook and its texts can be read. -/
theorem exists_declsOf_iff (prepared : event.boundArguments = event.arguments) :
    (∃ decls, declsOf debug event = .ok decls) ↔ event.hook.isSome ∧ event.IsExpressible := by
  unfold declsOf
  cases event.hook with
  | none => simp
  | some hook =>
      have isBody : (∃ stmts, body debug event = .ok stmts) ↔ event.IsExpressible := by
        rw [Event.IsExpressible, ← exists_conditionStmts_iff, ← Event.forall_mem_arguments_iff,
          ← prepared, ← exists_pushArguments_iff]
        simp only [body_eq_ok_iff]
        constructor
        · rintro ⟨_, conditions, pushes, isCondition, isPushes, _⟩
          exact ⟨⟨conditions, isCondition⟩, pushes, isPushes⟩
        · rintro ⟨⟨conditions, isCondition⟩, pushes, isPushes⟩
          exact ⟨_, conditions, pushes, isCondition, isPushes, rfl⟩
      rw [← isBody]
      cases body debug event with
      | error error => simp
      | ok stmts => simp

/-! ## Modules -/

/-- No event is in error exactly if declarations are generated for all of them. -/
theorem foldl_addEvent_errors_eq_nil_iff {events : List Event}
    {state : Code.Module × List GlueError} :
    (events.foldl (addEvent debug) state).2 = [] ↔
      state.2 = [] ∧ ∀ event ∈ events, ∃ decls, declsOf debug event = .ok decls := by
  induction events generalizing state with
  | nil => simp
  | cons first others ih =>
      rw [List.foldl_cons, ih, List.forall_mem_cons, addEvent]
      cases declsOf debug first with
      | ok decls => simp
      | error error => simp

theorem generate_errors_eq_nil_iff {store : Store} {grammar : GrammarModule} :
    (generate debug store grammar).2 = [] ↔
      ∀ event ∈ store.events, attaches grammar event = true →
        ∃ decls, declsOf debug event = .ok decls := by
  rw [generate, foldl_addEvent_errors_eq_nil_iff]
  simp only [List.mem_filter, true_and, and_imp]

end HookModule

namespace Compiler

/-- The hook modules are without errors exactly if those of all modules with sources
are. -/
theorem generateHooks_errors_eq_nil_iff {debug : Bool} {store : Store}
    {grammars : List GrammarModule} :
    (generateHooks debug store grammars).2.2 = [] ↔
      ∀ grammar ∈ grammars, grammar.sources ≠ [] →
        (HookModule.generate debug store grammar).2 = [] := by
  induction grammars with
  | nil => simp [generateHooks]
  | cons first others ih =>
      rw [List.forall_mem_cons, ← ih, generateHooks]
      cases isSources : first.sources with
      | nil => simp
      | cons source sources => simp

end Compiler

end AnalyzerGlue
