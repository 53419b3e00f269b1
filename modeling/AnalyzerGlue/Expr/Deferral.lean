import AnalyzerGlue.Expr

/-!
# Deferred access to optional members

Reading `a.?b` raises an exception when `b` is not set.  `Expr.defer` puts each
such access, at every depth, into a deferred expression, so that the place of
use decides whether the exception is caught.
-/

namespace AnalyzerGlue

/-- Puts an operator expression into a deferred one if it is an access to an
optional member. -/
def deferOperator (catching : Bool) (operator : Operator) (operands : List Expr)
    (location : Option Location) : Expr :=
  if operator = .tryMember then
    .deferred (.apply operator operands location) catching location
  else
    .apply operator operands location

mutual

/-- Defers the accesses to optional members in an expression, the inner ones
first. -/
def Expr.defer (catching : Bool) : Expr → Expr
  | .atom value location => .atom value location
  | .tuple items location => .tuple (Expr.deferAll catching items) location
  | .vector items location => .vector (Expr.deferAll catching items) location
  | .call callee arguments location =>
      .call callee (Expr.deferAll catching arguments) location
  | .memberCall receiver method arguments location =>
      .memberCall (receiver.defer catching) method (Expr.deferAll catching arguments) location
  | .apply operator operands location =>
      deferOperator catching operator (Expr.deferAll catching operands) location
  | .ternary condition yes no location =>
      .ternary (condition.defer catching) (yes.defer catching) (no.defer catching) location
  | .deferred inner caught location => .deferred (inner.defer catching) caught location
  | .move inner location => .move (inner.defer catching) location
  | .assign target value location =>
      .assign (target.defer catching) (value.defer catching) location

/-- Defers the accesses to optional members in each of some expressions. -/
def Expr.deferAll (catching : Bool) : List Expr → List Expr
  | [] => []
  | first :: others => first.defer catching :: Expr.deferAll catching others

end

/-- Deferring works on each member of a list by itself. -/
theorem Expr.deferAll_eq_map (catching : Bool) (items : List Expr) :
    Expr.deferAll catching items = items.map (Expr.defer catching) := by
  induction items with
  | nil => rfl
  | cons first others ih => rw [Expr.deferAll, ih, List.map_cons]

end AnalyzerGlue
