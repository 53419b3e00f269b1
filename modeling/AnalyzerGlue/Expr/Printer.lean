import AnalyzerGlue.Expr
import AnalyzerGlue.Text.Replace

/-!
# The text of expressions

Each expression is rendered as a piece: its text and how tightly it binds.  An
operand that binds looser than its place demands is put in parentheses.  The
powers of pieces are one above those of the operators between operands, which
leaves room for assignments and conditional expressions below them.
-/

namespace AnalyzerGlue

/-! ## Powers -/

/-- The power of assignments, which bind loosest. -/
def assignPower : Nat := 0

/-- The power of conditional expressions. -/
def ternaryPower : Nat := 1

/-- The power of an operator before its operand. -/
def beforePower : Nat := 13

/-- The power of expressions that never need parentheses. -/
def atomPower : Nat := 14

/-- The power of an operator together with its operands. -/
def Fixity.power : Fixity → Nat
  | .between power => power + 1
  | .before => beforePower
  | .access | .methodCall | .call | .index => atomPower

/-- The text of an expression and how tightly it binds. -/
structure Piece where
  power : Nat
  text : List Char
deriving DecidableEq, Repr

/-- The text as an operand where at least the given power is needed. -/
def Piece.asOperand (piece : Piece) (least : Nat) : List Char :=
  if piece.power < least then '(' :: piece.text ++ [')'] else piece.text

/-- The texts of some pieces with commas between them. -/
def Piece.list (pieces : List Piece) : List Char :=
  Text.joinWith [',', ' '] (pieces.map Piece.text)

/-! ## Literals -/

/-- How a character is written inside quotes. -/
def escapeChar : Char → List Char
  | '"' => ['\\', '"']
  | '\\' => ['\\', '\\']
  | '\n' => ['\\', 'n']
  | '\r' => ['\\', 'r']
  | '\t' => ['\\', 't']
  | c => [c]

/-- A text in quotes. -/
def quote (text : String) : List Char :=
  '"' :: text.toList.flatMap escapeChar ++ ['"']

/-- The piece of an expression without parts.  A negative number binds like the
sign before it. -/
def Atom.piece : Atom → Piece
  | .id name => ⟨atomPower, name.text.toList⟩
  | .member name => ⟨atomPower, name.toList⟩
  | .bool true => ⟨atomPower, "True".toList⟩
  | .bool false => ⟨atomPower, "False".toList⟩
  | .int (.ofNat value) => ⟨atomPower, Nat.toDigits 10 value⟩
  | .int (.negSucc value) => ⟨beforePower, '-' :: Nat.toDigits 10 (value + 1)⟩
  | .real text => ⟨atomPower, text.toList⟩
  | .string text => ⟨atomPower, quote text⟩
  | .bytes text => ⟨atomPower, 'b' :: quote text⟩
  | .null => ⟨atomPower, "Null".toList⟩
  | .port number => ⟨atomPower, number.text.toList⟩
  | .scope => ⟨atomPower, "scope()".toList⟩

/-! ## Operators -/

/-- The text of an operator with its operands.  An operator with an unfitting
number of operands is written like a call, in angle brackets. -/
def Operator.textWith (operator : Operator) (operands : List Piece) : List Char :=
  match operator.fixity, operands with
  | .access, [receiver, name] =>
      receiver.asOperand atomPower ++ operator.text.toList ++ name.text
  | .methodCall, receiver :: name :: arguments =>
      receiver.asOperand atomPower ++ '.' :: name.text ++ '(' :: Piece.list arguments ++ [')']
  | .call, callee :: arguments =>
      callee.asOperand atomPower ++ '(' :: Piece.list arguments ++ [')']
  | .index, [container, position] =>
      container.asOperand atomPower ++ '[' :: position.text ++ [']']
  | .before, [operand] =>
      operator.text.toList ++ operand.asOperand beforePower
  | .between power, [left, right] =>
      left.asOperand (power + 1) ++ ' ' :: operator.text.toList ++
        ' ' :: right.asOperand (power + 2)
  | _, operands =>
      '<' :: operator.text.toList ++ ">(".toList ++ Piece.list operands ++ [')']

/-! ## Expressions -/

/-- The text of a tuple; a single item is followed by a comma. -/
def tupleText (items : List Piece) : List Char :=
  match items with
  | [item] => '(' :: item.text ++ [',', ')']
  | items => '(' :: Piece.list items ++ [')']

mutual

/-- The piece of an expression. -/
def Expr.piece : Expr → Piece
  | .atom value _ => value.piece
  | .tuple items _ => ⟨atomPower, tupleText (Expr.pieces items)⟩
  | .vector items _ =>
      ⟨atomPower, '[' :: Piece.list (Expr.pieces items) ++ [']']⟩
  | .call callee arguments _ =>
      ⟨atomPower, callee.text.toList ++ '(' :: Piece.list (Expr.pieces arguments) ++ [')']⟩
  | .memberCall receiver method arguments _ =>
      ⟨atomPower, receiver.piece.asOperand atomPower ++ '.' :: method.toList ++
        '(' :: Piece.list (Expr.pieces arguments) ++ [')']⟩
  | .apply operator operands _ =>
      ⟨operator.fixity.power, operator.textWith (Expr.pieces operands)⟩
  | .ternary condition yes no _ =>
      ⟨ternaryPower, condition.piece.asOperand (ternaryPower + 1) ++ " ? ".toList ++
        yes.piece.asOperand (ternaryPower + 1) ++ " : ".toList ++
        no.piece.asOperand ternaryPower⟩
  | .deferred inner catching _ =>
      ⟨atomPower, "deferred(".toList ++ inner.piece.text ++ ", catch_exception=".toList ++
        (if catching then "true)" else "false)").toList⟩
  | .move inner _ =>
      ⟨atomPower, "move(".toList ++ inner.piece.text ++ [')']⟩
  | .assign target value _ =>
      ⟨assignPower, target.piece.asOperand ternaryPower ++ " = ".toList ++
        value.piece.asOperand assignPower⟩

/-- The pieces of some expressions. -/
def Expr.pieces : List Expr → List Piece
  | [] => []
  | first :: others => first.piece :: Expr.pieces others

end

/-- An operator is written with the pieces of its operands. -/
theorem Expr.piece_apply (operator : Operator) (operands : List Expr)
    (location : Option Location) :
    (Expr.apply operator operands location).piece =
      ⟨operator.fixity.power, operator.textWith (Expr.pieces operands)⟩ := by
  rw [Expr.piece]

/-- The text of an expression. -/
def Expr.text (expr : Expr) : String :=
  String.ofList expr.piece.text

end AnalyzerGlue
