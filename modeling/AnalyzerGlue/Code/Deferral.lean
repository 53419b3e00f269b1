import AnalyzerGlue.Code
import AnalyzerGlue.Expr.Deferral

/-!
# Deferred access in modules

The expressions in the bodies and initial values of a module, with their
accesses to optional members deferred.  Attributes are left as they are.
-/

namespace AnalyzerGlue.Code

mutual

/-- Defers the accesses to optional members in a statement. -/
def Stmt.defer (catching : Bool) : Stmt → Stmt
  | .expr value => .expr (value.defer catching)
  | .ifThen condition body => .ifThen (condition.defer catching) (deferBlock catching body)
  | .ret value => .ret (value.map (Expr.defer catching))
  | .declare name type init => .declare name type (init.map (Expr.defer catching))

/-- Defers the accesses to optional members in a block. -/
def deferBlock (catching : Bool) : List Stmt → List Stmt
  | [] => []
  | first :: others => first.defer catching :: deferBlock catching others

end

/-- Defers the accesses to optional members in a declaration. -/
def Decl.defer (catching : Bool) : Decl → Decl
  | .function declared =>
      .function { declared with body := declared.body.map (deferBlock catching) }
  | .global declared => .global { declared with init := declared.init.defer catching }
  | .hook declared => .hook { declared with body := deferBlock catching declared.body }

/-- Defers the accesses to optional members in a module. -/
def Module.defer (catching : Bool) (code : Module) : Module :=
  { code with decls := code.decls.map (Decl.defer catching) }

end AnalyzerGlue.Code
