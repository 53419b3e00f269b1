import AnalyzerGlue.Text.Replace

/-!
# Qualified names

A qualified name is a text whose parts are set apart by `::`, such as
`HTTP::Request::uri`.  Any text is allowed.  Its qualifier is everything
before the last `::`, and its base is what follows.

Names cannot hold a percent sign, so one that is written in a source is stored
as `0x25_`: `%done` becomes `0x25_done`.
-/

namespace AnalyzerGlue

/-- A name whose parts are set apart by `::`. -/
structure QualName where
  text : String
deriving DecidableEq, Repr, Inhabited

namespace QualName

/-- What is stored in place of a percent sign. -/
def percentEscape : List Char := ['0', 'x', '2', '5', '_']

/-- The characters of a name for the characters it is written with. -/
def escapePercent (written : List Char) : List Char :=
  written.flatMap fun c => if c = '%' then percentEscape else [c]

/-- The name for a text that is written in a source. -/
def ofWritten (written : List Char) : QualName :=
  ⟨String.ofList (escapePercent written)⟩

/-- The text of a name with its percent signs put back. -/
def written (name : QualName) : String :=
  String.ofList (Text.replace percentEscape ['%'] name.text.toList)

/-- Whether the name has no characters. -/
def isEmpty (name : QualName) : Bool :=
  name.text.isEmpty

/-! ## Taking apart and putting together -/

/-- The parts of a text before and after the last `::` in it. -/
def splitLast? : List Char → Option (List Char × List Char)
  | [] => none
  | c :: rest =>
      match splitLast? rest with
      | some (before, after) => some (c :: before, after)
      | none =>
          match c, rest with
          | ':', ':' :: after => some ([], after)
          | _, _ => none

/-- Everything before the last `::`; the empty name when there is none. -/
def qualifier (name : QualName) : QualName :=
  match splitLast? name.text.toList with
  | some (before, _) => ⟨String.ofList before⟩
  | none => ⟨""⟩

/-- Everything after the last `::`; the whole text when there is none. -/
def base (name : QualName) : String :=
  match splitLast? name.text.toList with
  | some (_, after) => String.ofList after
  | none => name.text

/-- The name `local` inside `outer`; inside the empty name it stands alone. -/
def within (outer : QualName) (inner : String) : QualName :=
  if outer.isEmpty then ⟨inner⟩ else ⟨outer.text ++ "::" ++ inner⟩

/-- The hook that a unit runs when it has been parsed to its end. -/
def doneHook (unit : QualName) : QualName :=
  unit.within (String.ofList (percentEscape ++ ['d', 'o', 'n', 'e']))

/-- The name as a plain identifier: each `::` becomes an underscore. -/
def flattened (name : QualName) : String :=
  String.ofList (Text.replace [':', ':'] ['_'] name.text.toList)

end QualName

end AnalyzerGlue
