import AnalyzerGlue.Token

/-!
# Operators

Operators are written behind, before or between their operands.  `Fixity` says
which, and for operators between two operands how tightly they bind; a greater
power binds tighter.
-/

namespace AnalyzerGlue

/-- The operators of expressions. -/
inductive Operator where
  | member | tryMember | hasMember | methodCall | call | index
  | not | minus | complement
  | or | and | bitOr | bitXor | bitAnd
  | equal | unequal | less | lessEqual | greater | greaterEqual | isIn
  | shiftLeft | shiftRight
  | sum | difference | product | quotient | remainder
deriving DecidableEq, Repr

/-- How an operator is written with its operands. -/
inductive Fixity where
  /-- A receiver, the operator and the name of a member. -/
  | access
  /-- A receiver, the name of a method and arguments. -/
  | methodCall
  /-- A callee and arguments. -/
  | call
  /-- A container and an index. -/
  | index
  /-- The operator before its operand. -/
  | before
  /-- The operator between two operands, with its power. -/
  | between (power : Nat)
deriving DecidableEq, Repr

namespace Operator

/-- How the operators are written. -/
def fixity : Operator → Fixity
  | .member | .tryMember | .hasMember => .access
  | .methodCall => .methodCall
  | .call => .call
  | .index => .index
  | .not | .minus | .complement => .before
  | .or => .between 1
  | .and => .between 2
  | .isIn => .between 3
  | .bitOr => .between 4
  | .bitXor => .between 5
  | .bitAnd => .between 6
  | .equal | .unequal => .between 7
  | .less | .lessEqual | .greater | .greaterEqual => .between 8
  | .shiftLeft | .shiftRight => .between 9
  | .sum | .difference => .between 10
  | .product | .quotient | .remainder => .between 11

/-- The sign of an operator. -/
def text : Operator → String
  | .member => "."
  | .tryMember => ".?"
  | .hasMember => "?."
  | .methodCall => ".()"
  | .call => "()"
  | .index => "[]"
  | .not => "!"
  | .minus => "-"
  | .complement => "~"
  | .or => "||"
  | .and => "&&"
  | .bitOr => "|"
  | .bitXor => "^"
  | .bitAnd => "&"
  | .equal => "=="
  | .unequal => "!="
  | .less => "<"
  | .lessEqual => "<="
  | .greater => ">"
  | .greaterEqual => ">="
  | .isIn => "in"
  | .shiftLeft => "<<"
  | .shiftRight => ">>"
  | .sum => "+"
  | .difference => "-"
  | .product => "*"
  | .quotient => "/"
  | .remainder => "%"

/-- The operator that a token denotes before an operand. -/
def beforeOperand? : Lexeme → Option Operator
  | .symbol .bang => some .not
  | .symbol .minus => some .minus
  | .symbol .tilde => some .complement
  | _ => none

/-- The operator that a token denotes between two operands, with its power. -/
def betweenOperands? : Lexeme → Option (Operator × Nat)
  | .symbol .orOr => some (.or, 1)
  | .symbol .andAnd => some (.and, 2)
  | .isIn => some (.isIn, 3)
  | .symbol .pipe => some (.bitOr, 4)
  | .symbol .caret => some (.bitXor, 5)
  | .symbol .ampersand => some (.bitAnd, 6)
  | .symbol .equal => some (.equal, 7)
  | .symbol .notEqual => some (.unequal, 7)
  | .symbol .less => some (.less, 8)
  | .symbol .lessEqual => some (.lessEqual, 8)
  | .symbol .greater => some (.greater, 8)
  | .symbol .greaterEqual => some (.greaterEqual, 8)
  | .symbol .shiftLeft => some (.shiftLeft, 9)
  | .symbol .shiftRight => some (.shiftRight, 9)
  | .symbol .plus => some (.sum, 10)
  | .symbol .minus => some (.difference, 10)
  | .symbol .star => some (.product, 11)
  | .symbol .slash => some (.quotient, 11)
  | .symbol .percent => some (.remainder, 11)
  | _ => none

/-- The power that comes with a token is the power of its operator. -/
theorem fixity_of_betweenOperands?_eq_some {kind : Lexeme} {operator : Operator}
    {power : Nat} (found : betweenOperands? kind = some (operator, power)) :
    operator.fixity = .between power := by
  unfold betweenOperands? at found
  split at found <;>
    simp only [Option.some.injEq, Prod.mk.injEq, reduceCtorEq] at found <;>
    rcases found with ⟨rfl, rfl⟩ <;>
    rfl

end Operator

end AnalyzerGlue
