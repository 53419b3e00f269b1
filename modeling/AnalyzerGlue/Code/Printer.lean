import AnalyzerGlue.Code
import AnalyzerGlue.Expr.Printer

/-!
# The text of generated modules

Blocks are indented by four blanks for each level.  A conditional whose block
only returns stays on one line.
-/

namespace AnalyzerGlue.Code

/-- The text of a type. -/
def Ty.text : Ty → String
  | .void => "void"
  | .bool => "bool"
  | .string => "string"
  | .named name => name.text
  | .vector element => "vector<" ++ element.text ++ ">"

/-! ## Statements -/

/-- The blanks at the start of a line. -/
def indentation (level : Nat) : String :=
  String.ofList (List.replicate (4 * level) ' ')

mutual

/-- The lines of a statement at a level of indentation. -/
def Stmt.render (level : Nat) : Stmt → String
  | .expr value => indentation level ++ value.text ++ ";\n"
  | .ifThen condition [.ret none] =>
      indentation level ++ "if ( " ++ condition.text ++ " ) return;\n"
  | .ifThen condition body =>
      indentation level ++ "if ( " ++ condition.text ++ " ) \x7b\n" ++
        renderAll (level + 1) body ++ indentation level ++ "\x7d\n"
  | .ret none => indentation level ++ "return;\n"
  | .ret (some value) => indentation level ++ "return " ++ value.text ++ ";\n"
  | .declare name type none =>
      indentation level ++ "local " ++ name ++ ": " ++ type.text ++ ";\n"
  | .declare name type (some init) =>
      indentation level ++ "local " ++ name ++ ": " ++ type.text ++ " = " ++ init.text ++ ";\n"

/-- The lines of a block whose statements are at the given level. -/
def renderAll (level : Nat) : List Stmt → String
  | [] => ""
  | first :: others => first.render level ++ renderAll level others

end

/-- The lines of a block inside a declaration. -/
def blockText (body : List Stmt) : String :=
  renderAll 1 body

/-! ## Declarations -/

/-- The text of an attribute, with a blank before it. -/
def Attribute.text (attr : Attribute) : String :=
  match attr.value with
  | some value => " " ++ attr.name ++ "=" ++ value.text
  | none => " " ++ attr.name

/-- The text of some attributes. -/
def attributesText (attributes : List Attribute) : String :=
  String.join (attributes.map Attribute.text)

/-- The text of a function. -/
def Function.text (function : Function) : String :=
  let params := function.params.map fun (name, type) => name ++ ": " ++ type.text
  let head := function.linkage.keyword ++ " function " ++ function.result.text ++ " " ++
    function.id ++ "(" ++ ", ".intercalate params ++ ")" ++
    attributesText function.attributes
  match function.body with
  | some body => head ++ " \x7b\n" ++ blockText body ++ "\x7d\n"
  | none => "declare " ++ head ++ ";\n"

/-- The text of a global; the linkage is left out if it is the usual one. -/
def Global.text (global : Global) : String :=
  let linkage := if global.linkage = .hidden then "" else global.linkage.keyword ++ " "
  linkage ++ "global " ++ global.id ++ " = " ++ global.init.text ++ ";\n"

/-- The text of a hook; the engine is left out if the hook is for all. -/
def Hook.text (hook : Hook) : String :=
  let engine := if hook.engine = .all then "" else " %" ++ hook.engine.keyword
  "on " ++ hook.hook.written ++ engine ++ attributesText hook.attributes ++ " \x7b\n" ++
    blockText hook.body ++ "\x7d\n"

/-- The text of a declaration. -/
def Decl.text : Decl → String
  | .function declared => declared.text
  | .global declared => declared.text
  | .hook declared => declared.text

/-! ## Modules -/

/-- The text of an import, with a comment on where the module is. -/
def Import.text (imported : Import) : String :=
  let scope :=
    match imported.scope with
    | some scope => " from " ++ scope
    | none => ""
  let comment :=
    match imported.path, imported.searchDirs with
    | some path, _ => " # " ++ imported.language.extension ++ ": " ++ path.text
    | none, [] => ""
    | none, dirs =>
        " # " ++ imported.language.extension ++ " search: " ++
          ", ".intercalate (dirs.map Path.text)
  "import " ++ imported.name.text ++ scope ++ ";" ++ comment ++ "\n"

/-- The text of a module. -/
def Module.text (code : Module) : String :=
  let imports :=
    if code.imports.isEmpty then ""
    else "\n" ++ String.join (code.imports.map Import.text)
  let decls := String.join (code.decls.map fun decl => "\n" ++ decl.text)
  "module " ++ code.id.text ++ " \x7b\n" ++ imports ++ decls ++ "\n\x7d\n"

end AnalyzerGlue.Code
