import AnalyzerGlue.Evt.Error
import AnalyzerGlue.Location
import AnalyzerGlue.Text.Numeral
import AnalyzerGlue.Text.Replace

/-!
# Conditional parts of glue sources

Lines that start with `@` are directives: `@if` with a condition, `@else` and
`@endif` enclose lines that are kept or left out.  Directives and lines that
are left out become empty lines, so that the lines which are kept have the same
numbers as before.

The groups that are open form a stack.  Each records whether the lines around
it are kept and whether its own lines are, so the innermost one alone decides
about the next line.
-/

namespace AnalyzerGlue.Evt

open AnalyzerGlue.Text

/-- A group of lines that is open. -/
structure Group where
  /-- Whether the lines around the group are kept. -/
  outer : Bool
  /-- Whether the condition of the group holds. -/
  holds : Bool
  /-- Whether the lines after `@else` have been reached. -/
  seenElse : Bool
  /-- Whether the next line is kept. -/
  kept : Bool
deriving DecidableEq, Repr

/-- The host version that conditions refer to and the groups that are open, the
innermost first. -/
structure Conditional where
  version : Nat
  groups : List Group
deriving DecidableEq, Repr

namespace Conditional

/-- The start, with no group open. -/
def start (version : Nat) : Conditional :=
  ⟨version, []⟩

/-- Whether the next line is kept. -/
def keeps (state : Conditional) : Bool :=
  match state.groups with
  | [] => true
  | group :: _ => group.kept

/-- Whether a group is open. -/
def isOpen (state : Conditional) : Bool :=
  !state.groups.isEmpty

/-! ## Conditions -/

/-- The comparison signs in the order in which they are tried. -/
def comparisons : List (List Char × (Int → Int → Bool)) :=
  [(['=', '='], fun left right => left == right),
    (['!', '='], fun left right => left != right),
    (['<', '='], fun left right => left ≤ right),
    (['>', '='], fun left right => left ≥ right),
    (['<'], fun left right => left < right),
    (['>'], fun left right => left > right)]

/-- The value of a variable; both names stand for the host version. -/
def valueOf? (version : Nat) (name : String) : Option Int :=
  if name = "HOST_VERSION" ∨ name = "ZEEK_VERSION" then some version else none

/-- Compares a value as the text demands: nothing, so that the value has to be
other than zero, or a sign and a number. -/
def compares? (value : Int) (text : List Char) : Option Bool :=
  if text.isEmpty then some (value != 0)
  else do
    let (holds, operand) ← comparisons.findSome? fun (sign, holds) =>
      (dropStart? sign text).map fun operand => (holds, operand)
    let number ← readSigned? (trim operand)
    return holds value number

/-- Whether a text starts with an exclamation mark that negates. -/
def negates : List Char → Bool
  | '!' :: '=' :: _ => false
  | '!' :: _ => true
  | _ => false

/-- The characters of variable names. -/
def isNameChar (c : Char) : Bool :=
  c.isAlphanum || c == '_'

/-- Whether a condition holds.  It is a variable, which may be negated and may
be compared with a number. -/
def evaluate (version : Nat) (condition : List Char) : Except EvtError Bool :=
  let text := trim condition
  let negated := negates text
  let text := if negated then trimStart text.tail else text
  let name := text.takeWhile isNameChar
  if name.isEmpty then .error (.invalidCondition (String.ofList condition))
  else
    match valueOf? version (String.ofList name) with
    | none => .error (.unknownVariable (String.ofList name))
    | some value =>
        match compares? value (trim (text.dropWhile isNameChar)) with
        | none => .error (.invalidCondition (String.ofList condition))
        | some holds => .ok (holds != negated)

/-! ## Directives -/

/-- Carries out a directive, whose name includes the `@`, on a state that lives on
behind it, also if the directive is in error. -/
def process (directive condition : List Char) : EStateM EvtError Conditional Unit := do
  let state ← get
  match String.ofList directive with
  | "@if" =>
      match evaluate state.version condition with
      | .error error => throw error
      | .ok holds =>
          let group := ⟨state.keeps, holds, false, state.keeps && holds⟩
          set { state with groups := group :: state.groups }
  | "@else" =>
      match state.groups with
      | [] => throw (.unmatchedDirective "else")
      | group :: outer =>
          if group.seenElse then throw .duplicateElse
          else
            let group := { group with seenElse := true, kept := group.outer && !group.holds }
            set { state with groups := group :: outer }
  | "@endif" =>
      match state.groups with
      | [] => throw (.unmatchedDirective "endif")
      | _ :: outer => set { state with groups := outer }
  | other => throw (.unknownDirective other)

/-- The directive of a line and its condition, if the line is one. -/
def directive? (line : List Char) : Option (List Char × List Char) :=
  match trim line with
  | '@' :: rest =>
      let text := '@' :: rest
      some (text.takeWhile fun c => !isSpace c,
        trim (text.dropWhile fun c => !isSpace c))
  | _ => none

/-- Goes through the lines from the given number on.  The state after them is
returned also if one of them is in error. -/
def filterLines (path : Path) :
    Nat → Conditional → List (List Char) →
      Conditional × Except (Located EvtError) (List (List Char))
  | _, state, [] => (state, .ok [])
  | number, state, line :: rest =>
      match directive? line with
      | some (directive, condition) =>
          match process directive condition state with
          | .error error left => (left, .error (.reportedAt error ⟨path, number⟩))
          | .ok _ next =>
              let (final, result) := filterLines path (number + 1) next rest
              (final, result.map ([] :: ·))
      | none =>
          let (final, result) := filterLines path (number + 1) state rest
          (final, result.map ((if state.keeps then line else []) :: ·))

/-- Goes through a whole source.  All groups have to be closed at its end. -/
def filter (state : Conditional) (path : Path) (source : List Char) :
    Conditional × Except (Located EvtError) (List Char) :=
  let all := lines source
  match filterLines path 1 state all with
  | (final, .error error) => (final, .error error)
  | (final, .ok kept) =>
      if final.isOpen then
        (final, .error (.reportedAt .unterminatedDirective ⟨path, all.length⟩))
      else (final, .ok (kept.flatMap fun line => line ++ ['\n']))

end Conditional

end AnalyzerGlue.Evt
