/-!
# Numerals

Readers for digit strings.  A reader takes the whole text: it yields nothing
for the empty text and for a text with a character that is no digit of the
base.
-/

namespace AnalyzerGlue.Text

/-- The largest unsigned number of sixty-four bits. -/
def maxWord : Nat := 0xFFFFFFFFFFFFFFFF

/-- The least signed number of sixty-four bits. -/
def minSigned : Int := -0x8000000000000000

/-- The largest signed number of sixty-four bits. -/
def maxSigned : Int := 0x7FFFFFFFFFFFFFFF

/-- The value of a digit; letters of either case stand for ten to fifteen. -/
def digitValue? (c : Char) : Option Nat :=
  if '0' ≤ c ∧ c ≤ '9' then some (c.toNat - '0'.toNat)
  else if 'a' ≤ c ∧ c ≤ 'f' then some (c.toNat - 'a'.toNat + 10)
  else if 'A' ≤ c ∧ c ≤ 'F' then some (c.toNat - 'A'.toNat + 10)
  else none

/-- Continues a numeral whose digits so far have the given value. -/
def readDigits? (base : Nat) : Nat → List Char → Option Nat
  | value, [] => some value
  | value, c :: rest => do
      let digit ← digitValue? c
      if digit < base then readDigits? base (value * base + digit) rest
      else none

/-- Reads a natural number of any size. -/
def readNat? (base : Nat) (text : List Char) : Option Nat :=
  if text.isEmpty then none else readDigits? base 0 text

/-- Reads a natural number that may have a plus sign and is at most `limit`. -/
def readUnsigned? (base limit : Nat) (text : List Char) : Option Nat := do
  let digits :=
    match text with
    | '+' :: digits => digits
    | digits => digits
  let value ← readNat? base digits
  if value ≤ limit then some value else none

/-- Reads a decimal integer with an optional sign, in the range of signed
numbers of sixty-four bits. -/
def readSigned? (text : List Char) : Option Int := do
  let value ←
    match text with
    | '-' :: digits => (readNat? 10 digits).map fun value => -(value : Int)
    | '+' :: digits => (readNat? 10 digits).map fun value => (value : Int)
    | digits => (readNat? 10 digits).map fun value => (value : Int)
  if minSigned ≤ value ∧ value ≤ maxSigned then some value else none

end AnalyzerGlue.Text
