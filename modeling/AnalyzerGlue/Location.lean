import AnalyzerGlue.Path
import AnalyzerGlue.Text.Space

/-!
# Locations and located errors

A location is a line of a file; lines are counted from one.  A located error
pairs the cause of an error with the location it is reported at, which may
still be missing.

`snippet` shows an error with the line it is about, one line of context on
each side, and a rule under the line.
-/

namespace AnalyzerGlue

/-- A line of a file. -/
structure Location where
  file : Path
  line : Nat
deriving DecidableEq, Repr, Inhabited

namespace Location

/-- A location as it is shown to the user. -/
def display (location : Location) : String :=
  location.file.text ++ ":" ++ toString location.line

end Location

/-- The cause of an error together with where it is reported. -/
structure Located (κ : Type) where
  cause : κ
  location : Option Location
deriving DecidableEq, Repr

namespace Located

variable {κ : Type}

/-- An error at a known location. -/
def reportedAt (cause : κ) (location : Location) : Located κ :=
  ⟨cause, some location⟩

/-- Gives the error a location unless it has one. -/
def orAt (error : Located κ) (location : Location) : Located κ :=
  match error.location with
  | some _ => error
  | none => { error with location := some location }

/-- A location that is there is never replaced. -/
@[simp]
theorem orAt_mk_some (cause : κ) (first second : Location) :
    (Located.mk cause (some first)).orAt second = ⟨cause, some first⟩ :=
  rfl

@[simp]
theorem orAt_mk_none (cause : κ) (location : Location) :
    (Located.mk cause none).orAt location = ⟨cause, some location⟩ :=
  rfl

/-- The message of an error, after its location if it has one. -/
def display (message : κ → String) (error : Located κ) : String :=
  match error.location with
  | some location => location.display ++ ": " ++ message error.cause
  | none => message error.cause

end Located

/-! ## Snippets -/

namespace Location

/-- The text filled up with blanks on its left to the given width. -/
def padLeft (width : Nat) (text : String) : String :=
  String.ofList (List.replicate (width - text.length) ' ') ++ text

/-- One row of a snippet: a label in the margin and a text beside it. -/
def snippetRow (width : Nat) (label : String) (text : List Char) : String :=
  "│ " ++ padLeft width label ++ " │ " ++ String.ofList text ++ "\n"

/-- The rule under a line: the blanks before its text, then a dash for each
character of the text.  A blank line has none. -/
def underline? (line : List Char) : Option (List Char) :=
  match Text.trim line with
  | [] => none
  | text => some (line.takeWhile Text.isSpace ++ List.replicate text.length '-')

/-- The rows for a line, with the rule if it is the line in question. -/
def snippetRows (width target number : Nat) (line : List Char) : String :=
  let row := snippetRow width (toString number) line
  if number = target then
    match underline? line with
    | some rule => row ++ snippetRow width "" rule
    | none => row
  else row

/-- An error message with the source line at the location.  A location before
the first line means the first line; for one after the last line there is only
the message. -/
def snippet (source : String) (location : Location) (message : String) : String :=
  let lines := Text.lines source.toList
  let target := max location.line 1
  let heading := "(" ++ location.display ++ ") " ++ message ++ "\n"
  if lines.length < target then heading
  else
    let first := max (target - 1) 1
    let last := min (target + 1) lines.length
    let width := (toString last).length
    let shown := (lines.zipIdx 1).filter fun (_, number) =>
      first ≤ number && number ≤ last
    heading ++ String.join (shown.map fun (line, number) =>
      snippetRows width target number line)

end Location

end AnalyzerGlue
