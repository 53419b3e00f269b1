/-!
# White space, trimming and lines

Texts are handled as lists of characters.  Two notions of white space occur:
`isSpace` is the Unicode property `White_Space`, and `isAsciiSpace` holds the
six ASCII characters of it.  Trimming always uses the former.

`lines` cuts a text at line feeds.  A carriage return directly before the line
feed belongs to the line ending, and a text that ends with a line feed has no
empty line after it.
-/

namespace AnalyzerGlue.Text

/-- A class of characters, as inclusive ranges of code points. -/
abbrev Ranges := List (Nat × Nat)

/-- Whether the code point of a character lies in one of the ranges. -/
def Ranges.has (ranges : Ranges) (c : Char) : Bool :=
  ranges.any fun (low, high) => low ≤ c.toNat && c.toNat ≤ high

theorem Ranges.has_eq_true_iff {ranges : Ranges} {c : Char} :
    ranges.has c = true ↔
      ∃ range ∈ ranges, range.1 ≤ c.toNat ∧ c.toNat ≤ range.2 := by
  simp [Ranges.has]

/-! ## White space -/

/-- The code points with the Unicode property `White_Space`. -/
def spaceRanges : Ranges :=
  [(0x9, 0xD), (0x20, 0x20), (0x85, 0x85), (0xA0, 0xA0), (0x1680, 0x1680),
    (0x2000, 0x200A), (0x2028, 0x2029), (0x202F, 0x202F), (0x205F, 0x205F),
    (0x3000, 0x3000)]

/-- Unicode white space. -/
def isSpace (c : Char) : Bool :=
  spaceRanges.has c

/-- ASCII white space: the blank and the five characters from tab to carriage
return, vertical tab included. -/
def isAsciiSpace (c : Char) : Bool :=
  c == ' ' || (0x9 ≤ c.toNat && c.toNat ≤ 0xD)

/-- ASCII white space is white space. -/
theorem isSpace_of_isAsciiSpace {c : Char} (ascii : isAsciiSpace c = true) :
    isSpace c = true := by
  simp only [isAsciiSpace, Bool.or_eq_true, beq_iff_eq, Bool.and_eq_true,
    decide_eq_true_eq] at ascii
  rcases ascii with rfl | ⟨low, high⟩
  · decide
  · simp [isSpace, spaceRanges, Ranges.has, low, high]

/-! ## Trimming -/

/-- The text without its leading white space. -/
def trimStart (text : List Char) : List Char :=
  text.dropWhile isSpace

/-- The text without its trailing white space. -/
def trimEnd (text : List Char) : List Char :=
  (text.reverse.dropWhile isSpace).reverse

/-- The text without the white space around it. -/
def trim (text : List Char) : List Char :=
  trimEnd (trimStart text)

/-! ## Lines -/

/-- The lines of a text without their endings. -/
def lines : List Char → List (List Char)
  | [] => []
  | '\n' :: rest => [] :: lines rest
  | '\r' :: '\n' :: rest => [] :: lines rest
  | c :: rest =>
      match lines rest with
      | [] => [[c]]
      | line :: others => (c :: line) :: others

end AnalyzerGlue.Text
