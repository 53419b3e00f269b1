import AnalyzerGlue.Json
import AnalyzerGlue.Json.Decimal
import AnalyzerGlue.Text.Numeral

/-!
# Reading JSON texts

A strict reader: there is nothing but one value in the text, and strings hold
no control characters and no escapes besides those of JSON.  Each step takes at
least one character, which bounds the steps by the length of the text.
-/

namespace AnalyzerGlue.Json

open AnalyzerGlue.Text

/-- The text without the blanks that JSON allows at its start. -/
def skipBlanks (text : List Char) : List Char :=
  text.dropWhile fun c => c == ' ' || c == '\n' || c == '\t' || c == '\r'

/-! ## Strings -/

/-- Reads four digits in base sixteen. -/
def codeUnit? : List Char → Option (Nat × List Char)
  | a :: b :: c :: d :: rest => (readNat? 16 [a, b, c, d]).map fun unit => (unit, rest)
  | _ => none

/-- Reads the second one of a pair of code units, with the escape before it. -/
def lowUnit? : List Char → Option (Nat × List Char)
  | '\\' :: 'u' :: text => do
      let (unit, rest) ← codeUnit? text
      if 0xDC00 ≤ unit ∧ unit ≤ 0xDFFF then some (unit, rest) else none
  | _ => none

/-- Reads the character behind `\u`.  Two code units that form a pair denote
one character; half of a pair denotes none. -/
def unicodeEscape? (text : List Char) : Option (Option Char × List Char) := do
  let (unit, rest) ← codeUnit? text
  if unit < 0xD800 ∨ 0xDFFF < unit then return (some (Char.ofNat unit), rest)
  else if 0xDC00 ≤ unit then return (none, rest)
  else
    match lowUnit? rest with
    | some (low, rest) =>
        return (some (Char.ofNat (0x10000 + (unit - 0xD800) * 0x400 + (low - 0xDC00))), rest)
    | none => return (none, rest)

/-- The character that a one-letter escape stands for. -/
def letterEscape? : Char → Option Char
  | '"' => some '"'
  | '\\' => some '\\'
  | '/' => some '/'
  | 'b' => some '\x08'
  | 'f' => some '\x0c'
  | 'n' => some '\n'
  | 'r' => some '\r'
  | 't' => some '\t'
  | _ => none

/-- Reads a string behind its opening quote.  One with half of a pair of code
units has no text. -/
def stringTail? : Nat → List Char → Option (Option (List Char) × List Char)
  | 0, _ => none
  | _ + 1, [] => none
  | _ + 1, '"' :: rest => some (some [], rest)
  | fuel + 1, '\\' :: 'u' :: rest => do
      let (c?, rest) ← unicodeEscape? rest
      let (text?, rest) ← stringTail? fuel rest
      return (c?.bind fun c => text?.map (c :: ·), rest)
  | fuel + 1, '\\' :: letter :: rest => do
      let c ← letterEscape? letter
      let (text?, rest) ← stringTail? fuel rest
      return (text?.map (c :: ·), rest)
  | fuel + 1, c :: rest =>
      if c.toNat < 0x20 ∨ c = '\\' then none
      else do
        let (text?, rest) ← stringTail? fuel rest
        return (text?.map (c :: ·), rest)

/-! ## Numbers -/

/-- Reads the digits of an integer, which start with zero only if that is all. -/
def integerPart? (text : List Char) : Option (List Char × List Char) :=
  match text.takeWhile Char.isDigit with
  | [] => none
  | ['0'] => some (['0'], text.dropWhile Char.isDigit)
  | '0' :: _ => none
  | digits => some (digits, text.dropWhile Char.isDigit)

/-- Reads one or more digits. -/
def digits? (text : List Char) : Option (List Char × List Char) :=
  match text.takeWhile Char.isDigit with
  | [] => none
  | digits => some (digits, text.dropWhile Char.isDigit)

/-- Reads the digits of a fractional part, if there is one. -/
def fractionPart? : List Char → Option (List Char × List Char)
  | '.' :: rest => digits? rest
  | rest => some ([], rest)

/-- Reads an exponent behind its mark. -/
def exponentTail? (text : List Char) : Option (Int × List Char) := do
  let (negative, text) :=
    match text with
    | '+' :: rest => (false, rest)
    | '-' :: rest => (true, rest)
    | rest => (false, rest)
  let (digits, rest) ← digits? text
  let value ← readNat? 10 digits
  return (if negative then -(value : Int) else value, rest)

/-- Reads an exponent, if there is one. -/
def exponentPart? : List Char → Option (Option Int × List Char)
  | 'e' :: rest | 'E' :: rest => (exponentTail? rest).map fun (value, rest) => (some value, rest)
  | rest => some (none, rest)

/-- The value of an integer of sixty-four bits; minus zero is none. -/
def integer? (negative : Bool) (digits : List Char) : Option Int := do
  let value ← readNat? 10 digits
  if negative then
    if 0 < value ∧ minSigned ≤ -(value : Int) then some (-(value : Int)) else none
  else
    if value ≤ maxWord then some (value : Int) else none

/-- The value of a decimal. -/
def ofDecimal (decimal : Decimal) : Json :=
  if decimal.inRange then .fraction else .unreadable

/-- The value of a number with its digits before the point, its digits behind
it and its exponent. -/
def ofNumeral (negative : Bool) (whole behind : List Char) : Option Int → Json
  | some exponent => ofDecimal (.ofDigits whole behind exponent)
  | none =>
      let decimal := ofDecimal (.ofDigits whole behind 0)
      if behind.isEmpty then (integer? negative whole).elim decimal .int else decimal

/-- Reads a number. -/
def number? (text : List Char) : Option (Json × List Char) := do
  let (negative, text) :=
    match text with
    | '-' :: rest => (true, rest)
    | rest => (false, rest)
  let (whole, text) ← integerPart? text
  let (behind, text) ← fractionPart? text
  let (exponent, text) ← exponentPart? text
  return (ofNumeral negative whole behind exponent, text)

/-! ## Values -/

mutual

/-- Reads a value. -/
def value? : Nat → List Char → Option (Json × List Char)
  | 0, _ => none
  | fuel + 1, text =>
      match skipBlanks text with
      | 'n' :: 'u' :: 'l' :: 'l' :: rest => some (.null, rest)
      | 't' :: 'r' :: 'u' :: 'e' :: rest => some (.bool true, rest)
      | 'f' :: 'a' :: 'l' :: 's' :: 'e' :: rest => some (.bool false, rest)
      | '"' :: rest => do
          let (text?, rest) ← stringTail? fuel rest
          return (text?.elim .unreadable fun text => .string (String.ofList text), rest)
      | '[' :: rest =>
          match skipBlanks rest with
          | ']' :: rest => some (.array [], rest)
          | rest => do
              let (items, rest) ← items? fuel rest
              return (.array items, rest)
      | '\x7b' :: rest =>
          match skipBlanks rest with
          | '\x7d' :: rest => some (.object [], rest)
          | rest => do
              let (members?, rest) ← objectTail? fuel rest
              return (members?.elim .unreadable .object, rest)
      | rest => number? rest

/-- Reads the items of an array, of which there is at least one. -/
def items? : Nat → List Char → Option (List Json × List Char)
  | 0, _ => none
  | fuel + 1, text => do
      let (first, rest) ← value? fuel text
      match skipBlanks rest with
      | ']' :: rest => return ([first], rest)
      | ',' :: rest =>
          let (others, rest) ← items? fuel rest
          return (first :: others, rest)
      | _ => none

/-- Reads the members of an object, of which there is at least one.  If a name
has no text, there are no members to tell apart. -/
def objectTail? : Nat → List Char → Option (Option (List (String × Json)) × List Char)
  | 0, _ => none
  | fuel + 1, text =>
      match skipBlanks text with
      | '"' :: rest => do
          let (name?, rest) ← stringTail? fuel rest
          match skipBlanks rest with
          | ':' :: rest =>
              let (value, rest) ← value? fuel rest
              let first? := name?.map fun name => (String.ofList name, value)
              match skipBlanks rest with
              | '\x7d' :: rest => return (first?.map ([·]), rest)
              | ',' :: rest =>
                  let (others?, rest) ← objectTail? fuel rest
                  return (first?.bind fun first => others?.map (first :: ·), rest)
              | _ => none
          | _ => none
      | _ => none

end

/-- The value of a JSON text. -/
def parse? (text : String) : Option Json :=
  let chars := text.toList
  match value? (2 * chars.length + 2) chars with
  | some (value, rest) => if (skipBlanks rest).isEmpty then some value else none
  | none => none

end AnalyzerGlue.Json
