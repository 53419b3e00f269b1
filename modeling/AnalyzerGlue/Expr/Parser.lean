import AnalyzerGlue.Expr
import AnalyzerGlue.Token.Lexer

/-!
# Reading expressions

The parser climbs by powers: an expression is read up to the first operator
that binds looser than its place demands.  Conditional expressions bind looser
than all operators, and calls, indices and member accesses tighter.

Tokens are taken from a list whose last token is never left behind.  On a list
that ends where an operand has to follow, the last token would be read again
and again; each step therefore uses up some fuel, and running out of it is the
error `endless`.  The fuel that `parse` provides grows with the list.
-/

namespace AnalyzerGlue

/-- The ways in which tokens fail to be an expression. -/
inductive ExprError where
  | lex (error : LexError)
  | expectedSymbol (sign : Symbol) (found : Token)
  | expectedWord (found : Token)
  | expectedOperand (found : Token)
  | trailing (found : Token)
  | tooLarge (value : Nat)
  | endless
deriving DecidableEq, Repr

/-- The message of an error. -/
def ExprError.message : ExprError → String
  | .lex error => error.message
  | .expectedSymbol sign found =>
      "expected " ++ sign.text ++ ", found: " ++ found.kind.display
  | .expectedWord found => "expected identifier, found: " ++ found.kind.display
  | .expectedOperand found => "expected expression, found: " ++ found.kind.display
  | .trailing found => "unexpected " ++ found.kind.display ++ " after expression"
  | .tooLarge value => "integer literal too large: " ++ toString value
  | .endless => "expression never ends"

namespace Expr

/-- A step of the parser: it takes tokens from the front of a list. -/
abbrev Parser := StateT (List Token) (Except ExprError)

namespace Parser

/-- The token in front.  The end of the text follows the empty list. -/
def front : List Token → Token
  | [] => ⟨.eof, 1⟩
  | token :: _ => token

/-- The list without its first token, unless that is the last one. -/
def behind : List Token → List Token
  | _ :: token :: rest => token :: rest
  | tokens => tokens

/-- The token in front, which stays there. -/
def peek : Parser Token := fun tokens => .ok (front tokens, tokens)

/-- Goes on to the next token. -/
def advance : Parser Unit := fun tokens => .ok ((), behind tokens)

/-- Stops with an error. -/
def fail {α : Type} (error : ExprError) : Parser α := fun _ => .error error

/-- Takes the given sign. -/
def expect (sign : Symbol) : Parser Unit := do
  let token ← peek
  if token.kind = .symbol sign then advance else fail (.expectedSymbol sign token)

/-- Takes the given sign if it is in front, and says whether it was. -/
def accept (sign : Symbol) : Parser Bool := do
  let token ← peek
  if token.kind = .symbol sign then
    advance
    return true
  else
    return false

/-- Takes a word. -/
def word : Parser String := do
  let token ← peek
  match token.kind with
  | .word name =>
      advance
      return name
  | _ => fail (.expectedWord token)

/-- The least power of an operand behind a sign before it. -/
def signPower : Nat := 12

/-- The atom that a token denotes by itself, if it is a literal. -/
def literal? : Lexeme → Option (Except ExprError Atom)
  | .int value =>
      if (value : Int) ≤ Text.maxSigned then some (.ok (.int value))
      else some (.error (.tooLarge value))
  | .real text => some (.ok (.real text))
  | .string text => some (.ok (.string text))
  | .bytes text => some (.ok (.bytes text))
  | .bool value => some (.ok (.bool value))
  | .null => some (.ok .null)
  | _ => none

/-- Takes the further parts of a qualified name that starts with `start`. -/
def path : Nat → String → Parser QualName
  | 0, _ => fail .endless
  | fuel + 1, start => do
      if ← accept .doubleColon then
        let part ← word
        path fuel (start ++ "::" ++ part)
      else
        return ⟨start⟩

mutual

/-- Takes a conditional expression, or one that binds tighter. -/
def ternary (location : Option Location) : Nat → Parser Expr
  | 0 => fail .endless
  | fuel + 1 => do
      let condition ← binary location fuel 0
      if ← accept .question then
        let yes ← ternary location fuel
        expect .colon
        let no ← ternary location fuel
        return .ternary condition yes no location
      else
        return condition

/-- Takes an expression in which no operator outside of parentheses has less
than the given power. -/
def binary (location : Option Location) : Nat → Nat → Parser Expr
  | 0, _ => fail .endless
  | fuel + 1, least => do
      let token ← peek
      match Operator.beforeOperand? token.kind with
      | some operator =>
          advance
          let operand ← binary location fuel signPower
          binaryTail location fuel least (.apply operator [operand] location)
      | none =>
          let left ← chain location fuel
          binaryTail location fuel least left

/-- Takes further operators and their right operands, each with all that is to
its left as its left operand. -/
def binaryTail (location : Option Location) : Nat → Nat → Expr → Parser Expr
  | 0, _, _ => fail .endless
  | fuel + 1, least, left => do
      let token ← peek
      match Operator.betweenOperands? token.kind with
      | some (operator, power) =>
          if power < least then
            return left
          else
            advance
            let right ← binary location fuel (power + 1)
            binaryTail location fuel least (.apply operator [left, right] location)
      | none => return left

/-- Takes a primary expression and the calls, indices and accesses behind it. -/
def chain (location : Option Location) : Nat → Parser Expr
  | 0 => fail .endless
  | fuel + 1 => do
      let first ← primary location fuel
      chainTail location fuel first

/-- Takes further calls, indices and accesses. -/
def chainTail (location : Option Location) : Nat → Expr → Parser Expr
  | 0, _ => fail .endless
  | fuel + 1, expr => do
      let token ← peek
      match token.kind with
      | .symbol .leftParen =>
          advance
          let arguments ← items location fuel .rightParen
          chainTail location fuel (.apply .call (expr :: arguments) location)
      | .symbol .leftBracket =>
          advance
          let index ← ternary location fuel
          expect .rightBracket
          chainTail location fuel (.apply .index [expr, index] location)
      | .symbol .dot =>
          advance
          let name ← word
          let member := Expr.atom (.member name) location
          if ← accept .leftParen then
            let arguments ← items location fuel .rightParen
            chainTail location fuel
              (.apply .methodCall (expr :: member :: arguments) location)
          else
            chainTail location fuel (.apply .member [expr, member] location)
      | .symbol .dotQuestion =>
          advance
          let name ← word
          chainTail location fuel
            (.apply .tryMember [expr, .atom (.member name) location] location)
      | .symbol .questionDot =>
          advance
          let name ← word
          chainTail location fuel
            (.apply .hasMember [expr, .atom (.member name) location] location)
      | _ => return expr

/-- Takes a name, a literal, a tuple, a vector or an expression in parentheses. -/
def primary (location : Option Location) : Nat → Parser Expr
  | 0 => fail .endless
  | fuel + 1 => do
      let token ← peek
      match token.kind with
      | .word _ =>
          let start ← word
          let name ← path fuel start
          return .atom (.id name) location
      | .symbol .leftParen =>
          advance
          if ← accept .rightParen then
            return .tuple [] location
          else
            let first ← ternary location fuel
            if ← accept .rightParen then
              return first
            else
              expect .comma
              let others ← items location fuel .rightParen
              return .tuple (first :: others) location
      | .symbol .leftBracket =>
          advance
          let elements ← items location fuel .rightBracket
          return .vector elements location
      | kind =>
          match literal? kind with
          | some (.ok value) =>
              advance
              return .atom value location
          | some (.error error) => fail error
          | none => fail (.expectedOperand token)

/-- Takes expressions with commas between them, and maybe one after the last,
up to the closing sign. -/
def items (location : Option Location) : Nat → Symbol → Parser (List Expr)
  | 0, _ => fail .endless
  | fuel + 1, close => do
      if ← accept close then
        return []
      else
        let first ← ternary location fuel
        if ← accept .comma then
          let others ← items location fuel close
          return first :: others
        else
          expect close
          return [first]

end

/-- Takes an expression that has to be followed by the end of the text. -/
def whole (location : Option Location) (fuel : Nat) : Parser Expr := do
  let expr ← ternary location fuel
  let token ← peek
  if token.kind = .eof then return expr else fail (.trailing token)

/-- Enough steps for every list of the given length on which reading ends. -/
def fuelFor (length : Nat) : Nat :=
  8 * length + 16

end Parser

/-- The expression that a list of tokens denotes.  Each of its nodes carries the
given location. -/
def ofTokens (tokens : List Token) (location : Option Location) :
    Except ExprError Expr :=
  match Parser.whole location (Parser.fuelFor tokens.length) tokens with
  | .ok (expr, _) => .ok expr
  | .error error => .error error

/-- The expression that a text denotes.  Errors are reported at the location. -/
def parse (text : String) (location : Option Location) :
    Except (Located ExprError) Expr :=
  match Token.tokenize text.toList with
  | .error error => .error ⟨.lex error, location⟩
  | .ok tokens =>
      match ofTokens tokens location with
      | .ok expr => .ok expr
      | .error error => .error ⟨error, location⟩

end Expr

end AnalyzerGlue
