import AnalyzerGlue.Evt.Error
import AnalyzerGlue.Location

/-!
# Statements as chunks of text

A source is cut into chunks at semicolons.  A comment goes from `#` to the end
of its line and is dropped; double quotes enclose strings, in which neither `#`
nor `;` means anything.  A backslash directly before a quote, a `#` or a `;`
takes away its meaning.

`Scanner.next` reads one chunk.  `length_lt_of_next` says that each result but
the clean end uses up some text, so that `Scanner.all` ends.
-/

namespace AnalyzerGlue.Evt

/-- A statement with its semicolon, and the line it starts on. -/
structure Chunk where
  text : List Char
  line : Nat
deriving DecidableEq, Repr

/-- The text that has not been read yet, and the line it starts on. -/
structure Scanner where
  rest : List Char
  line : Nat
deriving DecidableEq, Repr

/-- What reading a chunk can come to. -/
inductive Scanned where
  | chunk (chunk : Chunk)
  | error (error : EvtError) (line : Nat)
  | finished
deriving DecidableEq, Repr

namespace Scanner

/-- The start of a source. -/
def start (source : List Char) : Scanner :=
  ⟨source, 1⟩

/-- Where in a source the scanner is. -/
inductive Mode where
  | plain
  | comment
  | string
deriving DecidableEq, Repr

/-- What has been read of a chunk. -/
structure Partial where
  mode : Mode
  /-- The characters that belong to the chunk, the last one first. -/
  kept : List Char
  /-- The line of the first of them that is not blank. -/
  start : Option Nat
  /-- The line that has been reached. -/
  line : Nat
deriving DecidableEq, Repr

namespace Partial

/-- Nothing has been read, and the given line has been reached. -/
def empty (line : Nat) : Partial :=
  ⟨.plain, [], none, line⟩

/-- Whether the next character follows a backslash. -/
def escaped (read : Partial) : Bool :=
  read.kept.head? == some '\\'

/-- Adds a character to the chunk. -/
def keep (read : Partial) (mode : Mode) (c : Char) : Partial where
  mode := mode
  kept := c :: read.kept
  start := if Text.isSpace c then read.start else some (read.start.getD read.line)
  line := if c = '\n' then read.line + 1 else read.line

/-- The text of the chunk without the blanks around it. -/
def text (read : Partial) : List Char :=
  Text.trim read.kept.reverse

/-- The chunk that a semicolon ends. -/
def close (read : Partial) : Scanned :=
  let line := read.start.getD read.line
  if read.text.isEmpty then .error .emptyStatement line
  else .chunk ⟨read.text ++ [';'], line⟩

/-- The result at the end of the source. -/
def finish (read : Partial) : Scanned :=
  if read.text.isEmpty then .finished else .error .unexpectedEnd read.line

end Partial

/-- Reads the rest of a chunk. -/
def nextFrom (read : Partial) : List Char → Scanned × Scanner
  | [] => (read.finish, ⟨[], read.line⟩)
  | c :: rest =>
      match read.mode with
      | .plain =>
          if read.escaped then nextFrom (read.keep .plain c) rest
          else if c = '"' then nextFrom (read.keep .string c) rest
          else if c = '#' then nextFrom { read with mode := .comment } rest
          else if c = ';' then (read.close, ⟨rest, read.line⟩)
          else nextFrom (read.keep .plain c) rest
      | .string =>
          if c = '"' ∧ ¬ read.escaped then nextFrom (read.keep .plain c) rest
          else nextFrom (read.keep .string c) rest
      | .comment =>
          if c = '\n' then nextFrom (read.keep .plain c) rest
          else nextFrom read rest

/-- Reads the next chunk. -/
def next (scanner : Scanner) : Scanned × Scanner :=
  nextFrom (.empty scanner.line) scanner.rest

/-! ## Progress -/

/-- Reading a chunk from a text that is not empty uses up some of it. -/
theorem length_nextFrom_le (read : Partial) (text : List Char) :
    (nextFrom read text).2.rest.length ≤ text.length - 1 := by
  induction text generalizing read with
  | nil => exact Nat.le_refl _
  | cons c rest ih =>
      have step : ∀ next : Partial,
          (nextFrom next rest).2.rest.length ≤ (c :: rest).length - 1 := fun next =>
        Nat.le_trans (ih next) (Nat.sub_le _ _)
      unfold nextFrom
      split
      · split
        · exact step _
        · split
          · exact step _
          · split
            · exact step _
            · split
              · exact Nat.le_refl _
              · exact step _
      · split <;> exact step _
      · split <;> exact step _

/-- Every result but the clean end uses up some of the text. -/
theorem length_lt_of_next {scanner : Scanner}
    (goesOn : scanner.next.1 ≠ .finished) :
    scanner.next.2.rest.length < scanner.rest.length := by
  have bound := length_nextFrom_le (.empty scanner.line) scanner.rest
  rcases scanner with ⟨text, line⟩
  cases text with
  | nil => exact absurd rfl goesOn
  | cons c rest => exact Nat.lt_succ_of_le bound

/-- All results up to the clean end, each with the line that the scanner has
reached after it; the clean end is the last one. -/
def all (scanner : Scanner) : List (Scanned × Nat) :=
  if finished : scanner.next.1 = .finished then
    [(.finished, scanner.next.2.line)]
  else
    have := length_lt_of_next finished
    (scanner.next.1, scanner.next.2.line) :: all scanner.next.2
termination_by scanner.rest.length

end Scanner

end AnalyzerGlue.Evt
