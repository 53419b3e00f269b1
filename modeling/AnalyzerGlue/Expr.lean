import AnalyzerGlue.Expr.Operator
import AnalyzerGlue.Location
import AnalyzerGlue.Port
import AnalyzerGlue.QualName

/-!
# Expressions

One type of expressions serves both for the arguments and conditions that are
read from sources and for the code that is generated.  Each node may carry the
location it comes from.
-/

namespace AnalyzerGlue

/-- Expressions without parts. -/
inductive Atom where
  | id (name : QualName)
  /-- The name of a member, as an operand of the access operators. -/
  | member (name : String)
  | bool (value : Bool)
  | int (value : Int)
  /-- A real number, kept as it is written. -/
  | real (text : String)
  | string (text : String)
  | bytes (text : String)
  | null
  | port (port : Port)
  /-- The scope that tells apart the units linked into one program. -/
  | scope
deriving DecidableEq, Repr

/-- Expressions. -/
inductive Expr where
  | atom (value : Atom) (location : Option Location)
  | tuple (items : List Expr) (location : Option Location)
  | vector (items : List Expr) (location : Option Location)
  | call (callee : QualName) (arguments : List Expr) (location : Option Location)
  | memberCall (receiver : Expr) (method : String) (arguments : List Expr)
      (location : Option Location)
  | apply (operator : Operator) (operands : List Expr) (location : Option Location)
  | ternary (condition yes no : Expr) (location : Option Location)
  /-- Evaluated at the place of use; if `catching`, an exception there becomes an
  unset value. -/
  | deferred (inner : Expr) (catching : Bool) (location : Option Location)
  | move (inner : Expr) (location : Option Location)
  | assign (target value : Expr) (location : Option Location)
deriving Inhabited

namespace Expr

/-- The location of the outermost node. -/
def location : Expr → Option Location
  | .atom _ location
  | .tuple _ location
  | .vector _ location
  | .call _ _ location
  | .memberCall _ _ _ location
  | .apply _ _ location
  | .ternary _ _ _ location
  | .deferred _ _ location
  | .move _ location
  | .assign _ _ location => location

/-! ## Equality -/

mutual

/-- Whether two expressions are equal, locations included. -/
def equal : Expr → Expr → Bool
  | .atom value location, .atom value' location' =>
      value == value' && location == location'
  | .tuple items location, .tuple items' location' =>
      allEqual items items' && location == location'
  | .vector items location, .vector items' location' =>
      allEqual items items' && location == location'
  | .call callee arguments location, .call callee' arguments' location' =>
      callee == callee' && allEqual arguments arguments' && location == location'
  | .memberCall receiver method arguments location,
      .memberCall receiver' method' arguments' location' =>
      receiver.equal receiver' && method == method' && allEqual arguments arguments' &&
        location == location'
  | .apply operator operands location, .apply operator' operands' location' =>
      operator == operator' && allEqual operands operands' && location == location'
  | .ternary condition yes no location, .ternary condition' yes' no' location' =>
      condition.equal condition' && yes.equal yes' && no.equal no' && location == location'
  | .deferred inner catching location, .deferred inner' catching' location' =>
      inner.equal inner' && catching == catching' && location == location'
  | .move inner location, .move inner' location' =>
      inner.equal inner' && location == location'
  | .assign target value location, .assign target' value' location' =>
      target.equal target' && value.equal value' && location == location'
  | _, _ => false

/-- Whether two lists of expressions are equal. -/
def allEqual : List Expr → List Expr → Bool
  | [], [] => true
  | first :: others, first' :: others' => first.equal first' && allEqual others others'
  | _, _ => false

end

mutual

theorem equal_eq_true_iff (left right : Expr) :
    left.equal right = true ↔ left = right := by
  match left with
  | .atom .. => cases right <;> simp [equal]
  | .tuple items _ => cases right <;> simp [equal, allEqual_eq_true_iff items]
  | .vector items _ => cases right <;> simp [equal, allEqual_eq_true_iff items]
  | .call _ arguments _ =>
      cases right <;> simp [equal, allEqual_eq_true_iff arguments, and_assoc]
  | .memberCall receiver _ arguments _ =>
      cases right <;>
        simp [equal, equal_eq_true_iff receiver, allEqual_eq_true_iff arguments, and_assoc]
  | .apply _ operands _ =>
      cases right <;> simp [equal, allEqual_eq_true_iff operands, and_assoc]
  | .ternary condition yes no _ =>
      cases right <;>
        simp [equal, equal_eq_true_iff condition, equal_eq_true_iff yes,
          equal_eq_true_iff no, and_assoc]
  | .deferred inner _ _ =>
      cases right <;> simp [equal, equal_eq_true_iff inner, and_assoc]
  | .move inner _ => cases right <;> simp [equal, equal_eq_true_iff inner]
  | .assign target value _ =>
      cases right <;>
        simp [equal, equal_eq_true_iff target, equal_eq_true_iff value, and_assoc]

theorem allEqual_eq_true_iff (left right : List Expr) :
    allEqual left right = true ↔ left = right := by
  match left with
  | [] => cases right <;> simp [allEqual]
  | first :: others =>
      cases right <;>
        simp [allEqual, equal_eq_true_iff first, allEqual_eq_true_iff others]

end

instance : DecidableEq Expr := fun left right =>
  decidable_of_iff _ (equal_eq_true_iff left right)

/-! ## Generated expressions

Generated code has no location. -/

/-- A name. -/
def ofName (name : QualName) : Expr :=
  .atom (.id name) none

/-- A string literal. -/
def ofString (text : String) : Expr :=
  .atom (.string text) none

/-- An integer literal. -/
def ofInt (value : Int) : Expr :=
  .atom (.int value) none

/-- A truth value. -/
def ofBool (value : Bool) : Expr :=
  .atom (.bool value) none

/-- The null value. -/
def null : Expr :=
  .atom .null none

/-- A port literal. -/
def ofPort (port : Port) : Expr :=
  .atom (.port port) none

/-- A call of a named function. -/
def callOf (callee : QualName) (arguments : List Expr) : Expr :=
  .call callee arguments none

/-- A logical negation. -/
def negated (inner : Expr) : Expr :=
  .apply .not [inner] none

/-- A format string applied to a tuple of values. -/
def formatted (format values : Expr) : Expr :=
  .apply .remainder [format, values] none

end Expr

end AnalyzerGlue
