import AnalyzerGlue.Text.Numeral

/-!
# Decimals

A decimal is a word and a power of ten.  Of a number with many digits, only as
many as fit into the word are kept: further digits before the point count as
zeros, and further digits behind it are dropped.

A decimal lies in the range of doubles unless the product of its word and its
power of ten, both rounded to the precision of doubles, rounds to infinity.
-/

namespace AnalyzerGlue

open AnalyzerGlue.Text

/-- A decimal number without its sign. -/
structure Decimal where
  /-- The digits that are kept. -/
  significand : Nat
  /-- The power of ten that they are multiplied by. -/
  exponent : Int
deriving DecidableEq, Repr

namespace Decimal

/-! ## Digits -/

/-- Continues a word with the digits of a text, as long as it stays a word.
Yields the word and the number of digits that are left. -/
def fillWord : Nat → List Char → Nat × Nat
  | value, [] => (value, 0)
  | value, c :: rest =>
      let next := value * 10 + (digitValue? c).getD 0
      if next ≤ maxWord then fillWord next rest else (value, rest.length + 1)

/-- The decimal with the given digits before and behind the point, and with an
exponent of its own. -/
def ofDigits (whole fraction : List Char) (exponent : Int) : Decimal :=
  let (value, zeros) := fillWord 0 whole
  let (value, dropped) := fillWord value fraction
  ⟨value, zeros - (fraction.length - dropped : Nat) + exponent⟩

/-! ## Range -/

/-- A natural number rounded to the precision of doubles, which is fifty-three
binary digits.  Between two neighbours, the even one is taken. -/
def roundNat (n : Nat) : Nat :=
  let unit := Nat.pow 2 (n.log2 + 1 - 53)
  let quotient := n / unit
  let rest := n % unit
  if unit < 2 * rest ∨ (unit = 2 * rest ∧ quotient % 2 = 1) then (quotient + 1) * unit
  else quotient * unit

/-- The least number that rounds to infinity. -/
def infinityBound : Nat :=
  0x3FFFFFFFFFFFFF * Nat.pow 2 970

/-- The largest power of ten that is a double. -/
def maxPower : Nat := 308

/-- Whether a decimal lies in the range of doubles. -/
def inRange (decimal : Decimal) : Bool :=
  if decimal.significand = 0 ∨ decimal.exponent < 0 then true
  else
    let power := decimal.exponent.toNat
    power ≤ maxPower &&
      decide (roundNat decimal.significand * roundNat (Nat.pow 10 power) < infinityBound)

end Decimal

end AnalyzerGlue
