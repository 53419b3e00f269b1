/-!
# Tokens of expressions

An expression is a sequence of words, literals and symbols.  A token records
its kind and the column it starts at; columns count characters from one.
-/

namespace AnalyzerGlue

/-- The punctuation and operator signs of expressions. -/
inductive Symbol where
  | leftBracket | rightBracket | leftParen | rightParen
  | comma | dot | dotQuestion | questionDot | colon | doubleColon | question
  | plus | minus | star | slash | percent
  | ampersand | pipe | caret | tilde | shiftLeft | shiftRight
  | assign | equal | notEqual | less | greater | lessEqual | greaterEqual
  | andAnd | orOr | bang
deriving DecidableEq, Repr

/-- The kinds of tokens. -/
inductive Lexeme where
  | word (name : String)
  | int (value : Nat)
  | real (text : String)
  | bool (value : Bool)
  | string (text : String)
  | bytes (text : String)
  | null
  | isIn
  | symbol (sign : Symbol)
  | eof
deriving DecidableEq, Repr

/-- A token and the column it starts at. -/
structure Token where
  kind : Lexeme
  column : Nat
deriving DecidableEq, Repr

namespace Symbol

/-- The signs of one character. -/
def ofChar? : Char → Option Symbol
  | '[' => some .leftBracket
  | ']' => some .rightBracket
  | '(' => some .leftParen
  | ')' => some .rightParen
  | ',' => some .comma
  | '.' => some .dot
  | ':' => some .colon
  | '?' => some .question
  | '+' => some .plus
  | '-' => some .minus
  | '*' => some .star
  | '/' => some .slash
  | '%' => some .percent
  | '&' => some .ampersand
  | '|' => some .pipe
  | '^' => some .caret
  | '~' => some .tilde
  | '=' => some .assign
  | '<' => some .less
  | '>' => some .greater
  | '!' => some .bang
  | _ => none

/-- The signs of two characters. -/
def ofPair? : Char → Char → Option Symbol
  | '.', '?' => some .dotQuestion
  | '?', '.' => some .questionDot
  | ':', ':' => some .doubleColon
  | '<', '<' => some .shiftLeft
  | '>', '>' => some .shiftRight
  | '=', '=' => some .equal
  | '!', '=' => some .notEqual
  | '<', '=' => some .lessEqual
  | '>', '=' => some .greaterEqual
  | '&', '&' => some .andAnd
  | '|', '|' => some .orOr
  | _, _ => none

/-- How a sign is written. -/
def text : Symbol → String
  | .leftBracket => "["
  | .rightBracket => "]"
  | .leftParen => "("
  | .rightParen => ")"
  | .comma => ","
  | .dot => "."
  | .dotQuestion => ".?"
  | .questionDot => "?."
  | .colon => ":"
  | .doubleColon => "::"
  | .question => "?"
  | .plus => "+"
  | .minus => "-"
  | .star => "*"
  | .slash => "/"
  | .percent => "%"
  | .ampersand => "&"
  | .pipe => "|"
  | .caret => "^"
  | .tilde => "~"
  | .shiftLeft => "<<"
  | .shiftRight => ">>"
  | .assign => "="
  | .equal => "=="
  | .notEqual => "!="
  | .less => "<"
  | .greater => ">"
  | .lessEqual => "<="
  | .greaterEqual => ">="
  | .andAnd => "&&"
  | .orOr => "||"
  | .bang => "!"

/-- Reads the longest sign at the start of a text that begins with `c`. -/
def read (c : Char) : List Char → Option (Symbol × List Char)
  | [] => (ofChar? c).map fun sign => (sign, [])
  | d :: rest =>
      match ofPair? c d with
      | some sign => some (sign, rest)
      | none => (ofChar? c).map fun sign => (sign, d :: rest)

/-- Reading a sign never lengthens the text behind its first character. -/
theorem length_le_of_read_eq_some {c : Char} {rest left : List Char} {sign : Symbol}
    (found : read c rest = some (sign, left)) : left.length ≤ rest.length := by
  cases rest with
  | nil =>
      simp only [read, Option.map_eq_some_iff, Prod.mk.injEq] at found
      rcases found with ⟨_, _, _, rfl⟩
      exact Nat.le_refl _
  | cons d rest =>
      simp only [read] at found
      split at found
      · simp only [Option.some.injEq, Prod.mk.injEq] at found
        rcases found with ⟨_, rfl⟩
        exact Nat.le_succ _
      · simp only [Option.map_eq_some_iff, Prod.mk.injEq] at found
        rcases found with ⟨_, _, _, rfl⟩
        exact Nat.le_refl _

end Symbol

/-- A token as error messages name it. -/
def Lexeme.display : Lexeme → String
  | .word name => "Ident(" ++ name ++ ")"
  | .int value => "IntLit(" ++ toString value ++ ")"
  | .real text => "RealLit(" ++ text ++ ")"
  | .bool true => "BoolLit(true)"
  | .bool false => "BoolLit(false)"
  | .string text => "StringLit(" ++ text ++ ")"
  | .bytes text => "BytesLit(" ++ text ++ ")"
  | .null => "Null"
  | .isIn => "in"
  | .symbol sign => sign.text
  | .eof => "EOF"

end AnalyzerGlue
