/-!
# Taking, replacing and joining parts of a text

`dropStart?` takes away a given start of a text.  `replace` substitutes every
occurrence of a pattern, from left to right and without overlaps.  The
recursion is on the text: after an occurrence the rest of the pattern is passed
over character by character.
-/

namespace AnalyzerGlue.Text

/-- What follows `start` in a text that begins with it. -/
def dropStart? : List Char → List Char → Option (List Char)
  | [], text => some text
  | _ :: _, [] => none
  | c :: start, d :: text => if c = d then dropStart? start text else none

/-- A text begins with what is taken away, and the rest is what follows. -/
theorem dropStart?_eq_some_iff {start text rest : List Char} :
    dropStart? start text = some rest ↔ text = start ++ rest := by
  induction start generalizing text with
  | nil => simp [dropStart?]
  | cons c start ih =>
      cases text with
      | nil => simp [dropStart?]
      | cons d text =>
          by_cases same : c = d
          · simp [dropStart?, same, ih]
          · have differs : ¬ d = c := fun equation => same equation.symm
            simp [dropStart?, same, differs]

/-- Replaces the occurrences of a non-empty pattern after passing over the
first `skip` characters. -/
def replaceAfter (pattern substitute : List Char) : Nat → List Char → List Char
  | _, [] => []
  | skip + 1, _ :: rest => replaceAfter pattern substitute skip rest
  | 0, c :: rest =>
      if pattern.isPrefixOf (c :: rest) then
        substitute ++ replaceAfter pattern substitute (pattern.length - 1) rest
      else
        c :: replaceAfter pattern substitute 0 rest

/-- Replaces the occurrences of a non-empty pattern, the leftmost first. -/
def replace (pattern substitute text : List Char) : List Char :=
  replaceAfter pattern substitute 0 text

/-- Texts joined with a separator between each two of them. -/
def joinWith (separator : List Char) : List (List Char) → List Char
  | [] => []
  | [text] => text
  | text :: others => text ++ separator ++ joinWith separator others

end AnalyzerGlue.Text
