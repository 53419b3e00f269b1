import AnalyzerGlue.Evt.Error
import AnalyzerGlue.Expr.Parser
import AnalyzerGlue.HostType

/-!
# Errors of a compilation

Every step of a compilation has errors of its own; `GlueError` brings them
together.  Errors about a source know where in it they belong.
-/

namespace AnalyzerGlue

/-- The reasons why a declaration does not fit the declared types. -/
inductive ResolveError where
  | missingUnit (path : QualName)
  | unknownUnit (unit path : QualName) (reason : LookupError)
  /-- A unit of an analyzer of the given sort. -/
  | analyzerUnit (sort name : String) (reason : LookupError)
  | unknownReserved (expression : String)
  | invalidExpression (expression : String) (reason : ExprError)
deriving DecidableEq, Repr

/-- The message of an error. -/
def ResolveError.message : ResolveError → String
  | .missingUnit path => "unit type missing in hook '" ++ path.text ++ "'"
  | .unknownUnit unit path reason =>
      "unknown unit type '" ++ unit.text ++ "' in hook '" ++ path.text ++ "': " ++
        reason.message
  | .analyzerUnit sort name reason =>
      "error with " ++ sort ++ " analyzer " ++ name ++ ": " ++ reason.message
  | .unknownReserved expression => "unknown reserved parameter '" ++ expression ++ "'"
  | .invalidExpression expression reason =>
      "error parsing expression '" ++ expression ++ "': " ++ reason.message

/-- The ways in which the steps of a compilation can fail to fit together. -/
inductive InternalError where
  | unregisteredModule (moduleId unit : QualName)
  | unresolvedEvent (name : QualName)
deriving DecidableEq, Repr

/-- The message of an error. -/
def InternalError.message : InternalError → String
  | .unregisteredModule moduleId unit =>
      "module " ++ moduleId.text ++ " of unit " ++ unit.text ++ " has not been registered"
  | .unresolvedEvent name => "event " ++ name.text ++ " has not been resolved"

/-- The errors of a compilation. -/
inductive GlueError where
  | source (error : Located EvtError)
  | resolve (error : Located ResolveError)
  | project (error : Located ProjectError)
  | internal (error : InternalError)
  | unreadable (path : Path) (reason : String)
deriving DecidableEq, Repr

namespace GlueError

/-- Where an error belongs, if it is about a source. -/
def location : GlueError → Option Location
  | .source error => error.location
  | .resolve error => error.location
  | .project error => error.location
  | .internal _ | .unreadable _ _ => none

/-- The message of an error without its location. -/
def message : GlueError → String
  | .source error => error.cause.message
  | .resolve error => error.cause.message
  | .project error => error.cause.message
  | .internal error => "internal error: " ++ error.message
  | .unreadable path reason => "cannot open " ++ path.text ++ ": " ++ reason

/-- The message of an error, after its location if it has one. -/
def display (error : GlueError) : String :=
  (Located.mk error error.location).display message

end GlueError

end AnalyzerGlue
