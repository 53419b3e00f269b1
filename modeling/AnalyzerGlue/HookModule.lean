import AnalyzerGlue.Expr.Deferral
import AnalyzerGlue.Resolve

/-!
# Hook modules

For each grammar module that events attach to, a module is generated with a
handler and a hook for each of these events.  The hook evaluates the arguments
of the event, converts them to values of the host, and raises the event.
-/

namespace AnalyzerGlue.HookModule

open HostRuntime

/-- Reads an expression of an event. -/
def parseExpr (event : Event) (text : String) : Except GlueError Expr :=
  match Expr.parse text (some event.location) with
  | .ok expr => .ok expr
  | .error error =>
      .error (.resolve (.reportedAt (.invalidExpression text error.cause) event.location))

/-- The name of the handler of an event. -/
def handlerName (event : Event) : String :=
  "__handler_" ++ event.mangledName

/-- The handler of an event as an expression. -/
def handler (event : Event) : Expr :=
  .ofName ⟨handlerName event⟩

/-- The location of an event as an expression. -/
def place (event : Event) : Expr :=
  .ofString event.location.display

/-! ## Arguments -/

/-- The value of the host for an argument. -/
def argumentValue (event : Event) (argument : Argument) : Except GlueError Expr :=
  match provider? argument.expression with
  | some provider => .ok (call provider [place event])
  | none =>
      if argument.isReserved then
        .error (.resolve
          (.reportedAt (.unknownReserved argument.expression) argument.location))
      else
        match parseExpr event argument.expression with
        | .error error => .error error
        | .ok expr =>
            let type := call "event_arg_type"
              [handler event, .ofInt ((argument.index : Int) - 1), place event]
            .ok (call "to_val" [expr.defer false, type, place event])

/-- The statements that collect the values of some arguments. -/
def pushArguments (event : Event) : List Argument → Except GlueError (List Code.Stmt)
  | [] => .ok []
  | first :: others =>
      match argumentValue event first with
      | .error error => .error error
      | .ok value =>
          match pushArguments event others with
          | .error error => .error error
          | .ok pushes =>
              .ok (.expr (.memberCall (.ofName ⟨"args"⟩) "push_back" [value] none) :: pushes)

/-! ## Debugging output -/

/-- What debugging output shows for an argument. -/
def debugArgument (event : Event) (argument : Argument) : Expr :=
  if argument.isReserved then .ofString argument.expression
  else
    match Expr.parse argument.expression (some event.location) with
    | .ok expr => expr.defer true
    | .error _ => .ofString "<error>"

/-- The statement that reports an event with its arguments. -/
def debugStmt (event : Event) : Code.Stmt :=
  let holes := ", ".intercalate (event.boundArguments.map fun _ => "%s")
  let format := Expr.ofString ("-> event %s(" ++ holes ++ ")")
  let values := Expr.ofString event.name.text :: event.boundArguments.map (debugArgument event)
  .expr (call "debug" [.formatted format (.tuple values none)])

/-! ## Hooks -/

/-- The statement that ends the hook unless the condition of the event holds. -/
def conditionStmts (event : Event) : Except GlueError (List Code.Stmt) :=
  match event.condition with
  | none => .ok []
  | some condition =>
      match parseExpr event condition with
      | .error error => .error error
      | .ok expr => .ok [.returnUnless expr]

/-- The body of the hook for an event. -/
def body (debug : Bool) (event : Event) : Except GlueError (List Code.Stmt) :=
  match conditionStmts event with
  | .error error => .error error
  | .ok conditions =>
      match pushArguments event event.boundArguments with
      | .error error => .error error
      | .ok pushes =>
          .ok (conditions ++ (if debug then [debugStmt event] else []) ++
            [.returnUnless (call "have_handler" [handler event]),
              .declare "args" (.vector (.named (rt "Val"))) none] ++
            pushes ++
            [.expr (call "raise_event"
              [handler event, .move (.ofName ⟨"args"⟩) none, place event])])

/-- The handler and the hook for an event; neither, if a part of the event is in
error. -/
def declsOf (debug : Bool) (event : Event) : Except GlueError (List Code.Decl) :=
  match event.hook with
  | none => .error (.internal (.unresolvedEvent event.name))
  | some hook =>
      match body debug event with
      | .error error => .error error
      | .ok body =>
          let init := call "internal_handler" [.ofString event.name.text]
          .ok [.global ⟨handlerName event, init, .hidden, some event.location⟩,
            .hook ⟨hook, body, .all, [⟨"&priority", some (.ofInt event.priority)⟩],
              some event.location⟩]

/-! ## Modules -/

/-- The hook module for a grammar module, with its imports only. -/
def header (imports : List ImportDecl) (grammar : GrammarModule) : Code.Module :=
  let own : Code.Import := ⟨grammar.id, .spicy, none, some grammar.file, []⟩
  let start := ((Code.Module.empty (hooksModule grammar.id)).addImport own).addImport
    (.plain moduleName .hilti)
  imports.foldl (fun code decl =>
    code.addImport ⟨decl.name, .spicy, decl.scope, none, grammar.searchDirs⟩) start

/-- Adds what is generated for an event, or notes the error. -/
def addEvent (debug : Bool) (state : Code.Module × List GlueError) (event : Event) :
    Code.Module × List GlueError :=
  match declsOf debug event with
  | .ok decls => (state.1.add decls, state.2)
  | .error error => (state.1, state.2 ++ [error])

/-- Whether an event attaches to a grammar module. -/
def attaches (grammar : GrammarModule) (event : Event) : Bool :=
  event.binding.any fun binding => binding.moduleId == grammar.id

/-- The hook module for a grammar module, and the errors of its events. -/
def generate (debug : Bool) (store : Store) (grammar : GrammarModule) :
    Code.Module × List GlueError :=
  (store.events.filter (attaches grammar)).foldl (addEvent debug)
    (header store.imports grammar, [])

end AnalyzerGlue.HookModule
