import AnalyzerGlue.Proofs.Compiler.Contents

/-!
# Debugging output

With debugging output, each hook has one more statement, which reports the event before
the hook checks for a handler.  It shows every argument, also one that cannot be read, and
finds no errors of its own.  So it makes no difference for the errors, and none for the
generated modules once it is removed.
-/

namespace AnalyzerGlue

theorem Code.Module.mem_hooks_iff {code : Code.Module} {hook : Code.Hook} :
    hook ∈ code.hooks ↔ .hook hook ∈ code.decls := by
  rw [Code.Module.hooks, List.mem_filterMap]
  constructor
  · rintro ⟨decl, isDecl, isKind⟩
    cases decl with
    | function function => cases isKind
    | global declared => cases isKind
    | hook declared =>
        cases isKind
        exact isDecl
  · intro isDecl
    exact ⟨.hook hook, isDecl, rfl⟩

namespace HookModule

open HostRuntime

/-! ## Reports in hooks -/

/-- Whether a statement is debugging output. -/
def isReport : Code.Stmt → Bool
  | .expr (.call callee _ _) => callee == rt "debug"
  | _ => false

/-- The declaration without debugging output. -/
def silencedDecl : Code.Decl → Code.Decl
  | .hook hook => .hook { hook with body := hook.body.filter fun stmt => !isReport stmt }
  | decl => decl

/-- The module without debugging output. -/
def silenced (code : Code.Module) : Code.Module :=
  { code with decls := code.decls.map silencedDecl }

/-- The letters behind the percent signs of a format. -/
def placeholders : List Char → List Char
  | '%' :: c :: rest => c :: placeholders rest
  | _ :: rest => placeholders rest
  | [] => []

/-- One statement is debugging output.  It is directly before the check for a handler, and
its format has one `%s` for each value that it shows. -/
def ReportsOnce (body : List Code.Stmt) : Prop :=
  ∃ before format values handler behind,
    body = before ++ .expr (call "debug" [.formatted (.ofString format) (.tuple values none)]) ::
      .returnUnless (call "have_handler" [handler]) :: behind ∧
    (∀ stmt ∈ before, isReport stmt = false) ∧ (∀ stmt ∈ behind, isReport stmt = false) ∧
    placeholders format.toList = List.replicate values.length 's'

variable {event : Event}

theorem isReport_of_conditionStmts {conditions : List Code.Stmt}
    (isCondition : conditionStmts event = .ok conditions) :
    ∀ stmt ∈ conditions, isReport stmt = false := by
  unfold conditionStmts at isCondition
  split at isCondition
  · cases isCondition
    simp
  · split at isCondition
    · cases isCondition
    · cases isCondition
      simp [isReport, Code.Stmt.returnUnless]

/-- What is behind the check for a handler: the arguments, and the event that is raised. -/
theorem isReport_of_pushArguments {pushes : List Code.Stmt}
    (isPushes : pushArguments event event.boundArguments = .ok pushes) :
    ∀ stmt ∈ .declare "args" (.vector (.named (rt "Val"))) none :: (pushes ++
      [.expr (call "raise_event" [handler event, .move (.ofName ⟨"args"⟩) none, place event])]),
      isReport stmt = false := by
  rcases pushArguments_eq_ok_iff.mp isPushes with ⟨values, _, rfl⟩
  rw [List.forall_mem_cons, List.forall_mem_append, List.forall_mem_map, List.forall_mem_singleton]
  refine ⟨rfl, fun _ _ => rfl, ?_⟩
  show (rt "raise_event" == rt "debug") = false
  decide

/-! ## Formats -/

theorem placeholders_holes (count : Nat) (rest : List Char) :
    placeholders ((", ".intercalate (List.replicate count "%s")).toList ++ rest) =
      List.replicate count 's' ++ placeholders rest := by
  induction count with
  | zero => simp
  | succ count ih =>
      cases count with
      | zero => simp [placeholders]
      | succ count =>
          have isText : (", ".intercalate (List.replicate (count + 2) "%s")).toList ++ rest =
              '%' :: 's' :: ',' :: ' ' ::
                ((", ".intercalate (List.replicate (count + 1) "%s")).toList ++ rest) := by
            simp [List.replicate_succ]
          calc
            placeholders ((", ".intercalate (List.replicate (count + 2) "%s")).toList ++ rest) =
                's' :: placeholders
                  ((", ".intercalate (List.replicate (count + 1) "%s")).toList ++ rest) := by
              rw [isText]
              rfl
            _ = 's' :: (List.replicate (count + 1) 's' ++ placeholders rest) := by rw [ih]
            _ = List.replicate (count + 2) 's' ++ placeholders rest := rfl

/-- What reports an event has a placeholder for its name and one for each argument. -/
theorem exists_debugStmt_eq (event : Event) :
    ∃ format values,
      debugStmt event = .expr (call "debug" [.formatted (.ofString format) (.tuple values none)]) ∧
      placeholders format.toList = List.replicate values.length 's' := by
  refine ⟨_, _, rfl, ?_⟩
  have isText : ∀ holes : String, ("-> event %s(" ++ holes ++ ")").toList =
      "-> event ".toList ++ '%' :: 's' :: '(' :: (holes.toList ++ [')']) := by simp
  have isStart : ∀ rest, placeholders ("-> event ".toList ++ '%' :: 's' :: '(' :: rest) =
      's' :: placeholders rest := fun rest => rfl
  rw [isText, isStart, List.map_const', placeholders_holes, List.length_cons, List.length_map,
    List.replicate_succ]
  simp [placeholders]

/-! ## Hooks -/

/-- Whether a body is generated does not depend on debugging output, which is one statement
directly before the check for a handler. -/
theorem body_cases (event : Event) :
    (∃ error, ∀ debug, body debug event = .error error) ∨
      ∃ before behind, (∀ stmt ∈ before, isReport stmt = false) ∧
        (∀ stmt ∈ behind, isReport stmt = false) ∧
        ∀ debug, body debug event = .ok (before ++ (if debug then [debugStmt event] else []) ++
          .returnUnless (call "have_handler" [handler event]) :: behind) := by
  cases isCondition : conditionStmts event with
  | error error => exact .inl ⟨error, fun debug => by rw [body, isCondition]⟩
  | ok conditions =>
      cases isPushes : pushArguments event event.boundArguments with
      | error error => exact .inl ⟨error, fun debug => by simp only [body, isCondition, isPushes]⟩
      | ok pushes =>
          refine .inr ⟨conditions, _, isReport_of_conditionStmts isCondition,
            isReport_of_pushArguments isPushes, fun debug => ?_⟩
          simp only [body, isCondition, isPushes, List.append_assoc, List.cons_append,
            List.nil_append]

theorem filter_isReport_eq_self {stmts : List Code.Stmt}
    (silent : ∀ stmt ∈ stmts, isReport stmt = false) :
    (stmts.filter fun stmt => !isReport stmt) = stmts := by
  rw [List.filter_eq_self]
  intro stmt member
  rw [silent stmt member]
  rfl

/-- Without the report, the body is the one that is generated without debugging output. -/
theorem body_silenced (event : Event) :
    (body true event).map (List.filter fun stmt => !isReport stmt) = body false event := by
  rcases body_cases event with ⟨error, fails⟩ | ⟨before, behind, silentBefore, silentBehind, isBody⟩
  · rw [fails, fails]
    rfl
  · have isRemoved : isReport (debugStmt event) = true := by
      show (rt "debug" == rt "debug") = true
      exact beq_self_eq_true _
    have isKept : isReport (.returnUnless (call "have_handler" [handler event])) = false := rfl
    rw [isBody, isBody]
    simp [Except.map, isRemoved, isKept, filter_isReport_eq_self silentBefore,
      filter_isReport_eq_self silentBehind]

theorem reportsOnce_of_body {stmts : List Code.Stmt} (isBody : body true event = .ok stmts) :
    ReportsOnce stmts := by
  rcases body_cases event with ⟨error, fails⟩ | ⟨before, behind, silentBefore, silentBehind, holds⟩
  · rw [fails] at isBody
    cases isBody
  · rw [holds] at isBody
    cases isBody
    rcases exists_debugStmt_eq event with ⟨format, values, isStmt, fits⟩
    refine ⟨before, format, values, handler event, behind, ?_, silentBefore, silentBehind, fits⟩
    rw [if_pos rfl, isStmt, List.append_assoc]
    rfl

theorem declsOf_silenced (event : Event) :
    (declsOf true event).map (List.map silencedDecl) = declsOf false event := by
  unfold declsOf
  cases event.hook with
  | none => rfl
  | some hook =>
      simp only [← body_silenced event]
      cases body true event with
      | error error => rfl
      | ok stmts => rfl

theorem reportsOnce_of_declsOf {decls : List Code.Decl}
    (generated : declsOf true event = .ok decls) :
    ∀ hook, .hook hook ∈ decls → ReportsOnce hook.body := by
  rcases exists_of_declsOf_eq_ok generated with ⟨_, stmts, _, isBody, rfl⟩
  intro hook member
  simp only [declsOfPair, List.mem_cons, reduceCtorEq, Code.Decl.hook.injEq, List.not_mem_nil,
    or_false, false_or] at member
  rw [member]
  exact reportsOnce_of_body isBody

/-! ## Modules -/

theorem addEvent_silenced (state : Code.Module × List GlueError) (event : Event) :
    addEvent false (silenced state.1, state.2) event =
      (silenced (addEvent true state event).1, (addEvent true state event).2) := by
  unfold addEvent
  rw [← declsOf_silenced event]
  cases declsOf true event with
  | error error => rfl
  | ok decls => simp [Except.map, silenced, Code.Module.add]

theorem foldl_addEvent_silenced (state : Code.Module × List GlueError) (events : List Event) :
    events.foldl (addEvent false) (silenced state.1, state.2) =
      (silenced (events.foldl (addEvent true) state).1,
        (events.foldl (addEvent true) state).2) := by
  induction events generalizing state with
  | nil => rfl
  | cons first others ih => rw [List.foldl_cons, addEvent_silenced, ih, List.foldl_cons]

/-- Debugging output changes neither the errors of a hook module nor what is left without
it. -/
theorem generate_silenced (store : Store) (grammar : GrammarModule) :
    generate false store grammar =
      (silenced (generate true store grammar).1, (generate true store grammar).2) := by
  have isHeader : silenced (header store.imports grammar) = header store.imports grammar := by
    rw [header_eq]
    rfl
  have same := foldl_addEvent_silenced (header store.imports grammar, [])
    (store.events.filter (attaches grammar))
  rw [isHeader] at same
  exact same

/-- All hooks of a module report once. -/
def IsReporting (code : Code.Module) : Prop :=
  ∀ hook ∈ code.hooks, ReportsOnce hook.body

theorem isReporting_addEvent {state : Code.Module × List GlueError}
    (reporting : IsReporting state.1) (event : Event) :
    IsReporting (addEvent true state event).1 := by
  unfold addEvent
  cases generated : declsOf true event with
  | error error => exact reporting
  | ok decls =>
      intro hook member
      rcases List.mem_append.mp (Code.Module.mem_hooks_iff.mp member) with isOld | isNew
      · exact reporting hook (Code.Module.mem_hooks_iff.mpr isOld)
      · exact reportsOnce_of_declsOf generated hook isNew

theorem isReporting_foldl_addEvent {state : Code.Module × List GlueError}
    (reporting : IsReporting state.1) (events : List Event) :
    IsReporting (events.foldl (addEvent true) state).1 := by
  induction events generalizing state with
  | nil => exact reporting
  | cons first others ih => exact ih (isReporting_addEvent reporting first)

theorem isReporting_generate (store : Store) (grammar : GrammarModule) :
    IsReporting (generate true store grammar).1 := by
  apply isReporting_foldl_addEvent
  rw [header_eq]
  intro hook member
  cases member

end HookModule

/-! ## Compilations -/

/-- The host with its wish for debugging output changed. -/
def Host.debugging (host : Host) (debug : Bool) : Host :=
  { host with debug := debug }

namespace Compiler

/-- The compiler with its option for debugging output changed. -/
def debugging (compiler : Compiler) (debug : Bool) : Compiler :=
  { compiler with options := { compiler.options with debug := debug } }

theorem generateHooks_silenced (store : Store) (grammars : List GrammarModule) :
    (generateHooks false store grammars).2 =
      ((generateHooks true store grammars).2.1.map HookModule.silenced,
        (generateHooks true store grammars).2.2) := by
  induction grammars with
  | nil => rfl
  | cons first others ih =>
      rw [generateHooks, generateHooks, HookModule.generate_silenced]
      by_cases noSources : first.sources.isEmpty = true
      · simp only [if_pos noSources, ih]
      · simp only [if_neg noSources, ih, List.map_cons]

section

variable (compiler : Compiler) (host : Host) (option flag : Bool)

theorem noted_debugging :
    (compiler.debugging option).noted (host.debugging flag) =
      (compiler.noted host).debugging flag := by
  rw [noted, noted, Host.foldl_noteExport_eq, Host.foldl_noteExport_eq]
  rfl

theorem adopted_debugging :
    (compiler.debugging option).adopted (host.debugging flag) = compiler.adopted host := by
  rw [adopted, noted_debugging]
  rfl

theorem resolution_debugging :
    (compiler.debugging option).resolution (host.debugging flag) = compiler.resolution host := by
  rw [resolution, adopted_debugging, noted_debugging]
  rfl

theorem projection_debugging :
    (compiler.debugging option).projection (host.debugging flag) = compiler.projection host := by
  rw [projection, resolution_debugging, noted_debugging]
  rfl

/-- Nothing but the hook modules asks for debugging output. -/
theorem generation_debugging :
    (compiler.debugging option).generation (host.debugging flag) =
      generateHooks (option || flag) (compiler.resolution host).1
        (compiler.resolution host).1.modules := by
  rw [generation, resolution_debugging, noted_debugging]
  rfl

/-- The errors do not depend on debugging output. -/
theorem errors_debugging :
    (compiler.debugging option).errors (host.debugging flag) =
      (compiler.debugging true).errors (host.debugging true) := by
  have sameErrors : ∀ (debug : Bool) (store : Store) (grammars : List GrammarModule),
      (generateHooks debug store grammars).2.2 = (generateHooks true store grammars).2.2 := by
    intro debug store grammars
    cases debug with
    | true => rfl
    | false => rw [generateHooks_silenced]
  simp only [errors, adopted_debugging, noted_debugging, resolution_debugging,
    projection_debugging, generation_debugging]
  rw [sameErrors (option || flag)]
  rfl

/-- The output with debugging output, once this is removed, is the output without it. -/
theorem output_debugging (debugs : (option || flag) = true) :
    (compiler.debugging false).output (host.debugging false) =
      ⟨((compiler.debugging option).output (host.debugging flag)).init,
        ((compiler.debugging option).output (host.debugging flag)).hooks.map
          HookModule.silenced⟩ := by
  simp only [output, resolution_debugging, projection_debugging, generation_debugging, debugs,
    Bool.or_false, generateHooks_silenced]
  rfl

theorem isReporting_of_mem_output (debugs : (option || flag) = true) :
    ∀ code ∈ ((compiler.debugging option).output (host.debugging flag)).hooks,
      HookModule.IsReporting code := by
  simp only [output, generation_debugging, debugs, generateHooks_hooks_eq]
  rw [List.forall_mem_map]
  exact fun grammar _ => HookModule.isReporting_generate _ grammar

end

/-- Debugging output does not interfere, whether the compiler or the host asks for it.  With
and without it, a compilation yields the same errors; or it yields the same init module, and
hook modules that are the same once the debugging output is removed, of which there is one
statement in each hook. -/
theorem compile_debugging (compiler : Compiler) (host : Host) (option flag : Bool)
    (debugs : (option || flag) = true) :
    let loud := ((compiler.debugging option).compile (host.debugging flag)).1
    let quiet := ((compiler.debugging false).compile (host.debugging false)).1
    (∃ errors, loud = .error errors ∧ quiet = .error errors) ∨
      ∃ init hooks, loud = .ok ⟨init, hooks⟩ ∧ quiet = .ok ⟨init, hooks.map HookModule.silenced⟩ ∧
        ∀ code ∈ hooks, ∀ hook ∈ code.hooks, HookModule.ReportsOnce hook.body := by
  intro loud quiet
  have sameErrors := errors_debugging compiler host
  by_cases noErrors : ((compiler.debugging true).errors (host.debugging true)).isEmpty = true
  · right
    have isLoud : loud = .ok ((compiler.debugging option).output (host.debugging flag)) := by
      simp only [loud, compile_eq, sameErrors, if_pos noErrors]
    have isQuiet : quiet = .ok ((compiler.debugging false).output (host.debugging false)) := by
      simp only [quiet, compile_eq, sameErrors, if_pos noErrors]
    rw [output_debugging compiler host option flag debugs] at isQuiet
    exact ⟨_, _, isLoud, isQuiet, isReporting_of_mem_output compiler host option flag debugs⟩
  · left
    refine ⟨(compiler.debugging true).errors (host.debugging true), ?_, ?_⟩
    · simp only [loud, compile_eq, sameErrors, if_neg noErrors]
    · simp only [quiet, compile_eq, sameErrors, if_neg noErrors]

/-- A host that wants debugging output is handed one hook, with a report. -/
theorem compile_debugging_host :
    let table : TypeTable :=
      ⟨[(⟨"M"⟩, ⟨"m.spicy"⟩)], [⟨⟨"M::U"⟩, .unit [], ⟨"M"⟩, ⟨"m.spicy"⟩, none⟩], []⟩
    let host := Host.start table false true
    let compiler : Compiler := { start Options.usual with
      store := { Store.empty with
        events := [⟨⟨"M::U"⟩, none, ⟨"e"⟩, ["$conn", "b"], 0, ⟨⟨"a.evt"⟩, 1⟩, none, none, none⟩] } }
    (false || true) = true ∧ ∃ init code hook,
      ((compiler.debugging false).compile (host.debugging true)).1 = .ok ⟨init, [code]⟩ ∧
        ((compiler.debugging false).compile (host.debugging false)).1 =
          .ok ⟨init, [HookModule.silenced code]⟩ ∧
        code.hooks = [hook] ∧ HookModule.ReportsOnce hook.body := by
  intro table host compiler
  have isOutput : ((((compiler.debugging false).compile (host.debugging true)).1.toOption.map
      fun output => output.hooks.map fun code => code.hooks.length) = some [1]) := by decide +kernel
  have same := compile_debugging compiler host false true rfl
  rcases same with ⟨errors, fails, _⟩ | ⟨init, hooks, isLoud, isQuiet, reports⟩
  · rw [fails] at isOutput
    cases isOutput
  rw [isLoud] at isOutput
  rcases hooks with _ | ⟨code, _ | ⟨other, hooks⟩⟩
  · cases isOutput
  · have isOne : code.hooks.length = 1 := by simpa [Except.toOption] using isOutput
    rcases List.length_eq_one_iff.mp isOne with ⟨hook, isHook⟩
    have reportsHook := reports code List.mem_cons_self hook (isHook ▸ List.mem_cons_self)
    exact ⟨rfl, init, code, hook, isLoud, isQuiet, isHook, reportsHook⟩
  · simp [Except.toOption] at isOutput

end Compiler

end AnalyzerGlue
