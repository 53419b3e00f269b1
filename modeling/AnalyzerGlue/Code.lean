import AnalyzerGlue.Expr

/-!
# Generated modules

The code that is handed to the grammar compiler: modules with imports,
functions, globals and unit hooks.
-/

namespace AnalyzerGlue.Code

/-! ## Types and statements -/

/-- The types that occur in generated code. -/
inductive Ty where
  | void
  | bool
  | string
  | named (name : QualName)
  | vector (element : Ty)
deriving DecidableEq, Repr

/-- Statements.  A block is a list of them. -/
inductive Stmt where
  | expr (value : Expr)
  | ifThen (condition : Expr) (body : List Stmt)
  | ret (value : Option Expr)
  | declare (name : String) (type : Ty) (init : Option Expr)

/-- A statement that calls a named function. -/
def Stmt.callOf (callee : QualName) (arguments : List Expr) : Stmt :=
  .expr (.callOf callee arguments)

/-- A statement that ends the function unless a condition holds. -/
def Stmt.returnUnless (condition : Expr) : Stmt :=
  .ifThen condition.negated [.ret none]

/-! ## Declarations -/

/-- The languages of modules. -/
inductive Language where
  | hilti
  | spicy
deriving DecidableEq, Repr

/-- The file extension of a language. -/
def Language.extension : Language → String
  | .hilti => "hlt"
  | .spicy => "spicy"

/-- Who may use a declaration, and when a function runs. -/
inductive Linkage where
  | hidden
  | visible
  | preinit
deriving DecidableEq, Repr

/-- The keyword of a linkage. -/
def Linkage.keyword : Linkage → String
  | .hidden => "private"
  | .visible => "public"
  | .preinit => "preinit"

/-- The engines that a hook is meant for. -/
inductive Engine where
  | all
  | parser
  | composer
deriving DecidableEq, Repr

/-- The keyword of an engine. -/
def Engine.keyword : Engine → String
  | .all => "all"
  | .parser => "parser"
  | .composer => "composer"

/-- An attribute of a declaration. -/
structure Attribute where
  name : String
  value : Option Expr
deriving DecidableEq

/-- A function; one without a body is a prototype. -/
structure Function where
  id : String
  result : Ty
  params : List (String × Ty)
  body : Option (List Stmt)
  linkage : Linkage
  attributes : List Attribute

/-- A global with its initial value. -/
structure Global where
  id : String
  init : Expr
  linkage : Linkage
  location : Option Location
deriving DecidableEq

/-- Code that runs at a hook of a unit. -/
structure Hook where
  hook : QualName
  body : List Stmt
  engine : Engine
  attributes : List Attribute
  location : Option Location

/-- The priority of a hook, if its first `&priority` attribute is an integer. -/
def Hook.priority? (hook : Hook) : Option Int :=
  match hook.attributes.find? fun attr => attr.name == "&priority" with
  | some ⟨_, some (.atom (.int value) _)⟩ => some value
  | _ => none

/-- The declarations of a module. -/
inductive Decl where
  | function (function : Function)
  | global (global : Global)
  | hook (hook : Hook)

/-! ## Modules -/

/-- An import, with what is known about where to find the module. -/
structure Import where
  name : QualName
  language : Language
  scope : Option String
  path : Option Path
  searchDirs : List Path
deriving DecidableEq, Repr

namespace Import

/-- The import of a module that is found without help. -/
def plain (name : QualName) (language : Language) : Import :=
  ⟨name, language, none, none, []⟩

/-- Whether two imports are the same; paths count by their components. -/
def same (left right : Import) : Bool :=
  left.name == right.name && left.language == right.language &&
    left.scope == right.scope &&
    left.path.map Path.components == right.path.map Path.components &&
    left.searchDirs.map Path.components == right.searchDirs.map Path.components

end Import

/-- A module. -/
structure Module where
  id : QualName
  imports : List Import
  decls : List Decl

namespace Module

/-- A module without content. -/
def empty (id : QualName) : Module :=
  ⟨id, [], []⟩

/-- Adds an import unless the module has the same one. -/
def addImport (code : Module) (added : Import) : Module :=
  if code.imports.any added.same then code
  else { code with imports := code.imports ++ [added] }

/-- Adds declarations at the end. -/
def add (code : Module) (added : List Decl) : Module :=
  { code with decls := code.decls ++ added }

/-- The functions of a module in order. -/
def functions (code : Module) : List Function :=
  code.decls.filterMap fun
    | .function function => some function
    | _ => none

/-- The first function with an id. -/
def function? (code : Module) (id : String) : Option Function :=
  code.functions.find? fun function => function.id == id

/-- The globals of a module in order. -/
def globals (code : Module) : List Global :=
  code.decls.filterMap fun
    | .global global => some global
    | _ => none

/-- The hooks of a module in order. -/
def hooks (code : Module) : List Hook :=
  code.decls.filterMap fun
    | .hook hook => some hook
    | _ => none

end Module

end AnalyzerGlue.Code
