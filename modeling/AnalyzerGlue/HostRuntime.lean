import AnalyzerGlue.Expr

/-!
# Names of the host's runtime

Generated code calls functions of the host's runtime module and of the base
module of the grammar compiler.  This file fixes their names.
-/

namespace AnalyzerGlue.HostRuntime

/-- The runtime module of the host. -/
def moduleName : QualName := ⟨"host_rt"⟩

/-- The base module of the grammar compiler. -/
def baseModule : QualName := ⟨"hilti"⟩

/-- The module that registers analyzers, events and types. -/
def initModule : QualName := ⟨"host_init"⟩

/-- The function of that module which runs before everything else. -/
def initFunction : String := "host_preinit"

/-- The module with the hooks for a grammar module. -/
def hooksModule (grammar : QualName) : QualName :=
  ⟨"spicy_hooks_" ++ grammar.text⟩

/-- A name in the runtime module. -/
def rt (name : String) : QualName :=
  moduleName.within name

/-- A name in the base module. -/
def hilti (name : String) : QualName :=
  baseModule.within name

/-- A call of a function of the runtime. -/
def call (name : String) (arguments : List Expr) : Expr :=
  .callOf (rt name) arguments

/-- The basic types of the host. -/
inductive TypeTag where
  | addr | bool | count | double | int | interval | port | string | time
deriving DecidableEq, Repr

/-- The spelling of a basic type. -/
def TypeTag.text : TypeTag → String
  | .addr => "Addr"
  | .bool => "Bool"
  | .count => "Count"
  | .double => "Double"
  | .int => "Int"
  | .interval => "Interval"
  | .port => "Port"
  | .string => "String"
  | .time => "Time"

/-- The name of a basic type. -/
def TypeTag.name (tag : TypeTag) : QualName :=
  (rt "ZeekTypeTag").within tag.text

/-- The function that provides a reserved argument. -/
def provider? : String → Option String
  | "$conn" => some "current_conn"
  | "$file" => some "current_file"
  | "$packet" => some "current_packet"
  | "$is_orig" => some "current_is_orig"
  | _ => none

end AnalyzerGlue.HostRuntime
