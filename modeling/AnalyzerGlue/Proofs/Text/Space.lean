import AnalyzerGlue.Text.Space

/-!
# Facts about trimming and lines
-/

namespace AnalyzerGlue.Text

/-! ## Runs of characters -/

/-- A run of characters at the start of a text ends at a character that is not of
its class, whatever follows. -/
theorem span_append_cons {p : Char → Bool} {c : Char} (stops : p c = false)
    (text rest : List Char) :
    (text ++ c :: rest).takeWhile p = text.takeWhile p ∧
      (text ++ c :: rest).dropWhile p = text.dropWhile p ++ c :: rest := by
  induction text with
  | nil => simp [stops]
  | cons d text ih =>
      cases inside : p d with
      | true => simp [inside, ih]
      | false => simp [inside]

/-! ## Trimming -/

/-- ASCII white space at the start of a text goes away with the other white
space there. -/
theorem trim_dropWhile_isAsciiSpace (text : List Char) :
    trim (text.dropWhile isAsciiSpace) = trim text := by
  have start : trimStart (text.dropWhile isAsciiSpace) = trimStart text := by
    induction text with
    | nil => rfl
    | cons c text ih =>
        cases ascii : isAsciiSpace c with
        | true =>
            rw [List.dropWhile_cons_of_pos ascii, ih, trimStart, trimStart,
              List.dropWhile_cons_of_pos (isSpace_of_isAsciiSpace ascii)]
        | false => rw [List.dropWhile_cons_of_neg (by simp [ascii])]
  rw [trim, start, trim]

/-- A text keeps all its characters if it starts and ends with visible ones. -/
theorem trim_eq_self {text : List Char} (first : ∀ c ∈ text.head?, isSpace c = false)
    (last : ∀ c ∈ text.getLast?, isSpace c = false) : trim text = text := by
  have keeps : ∀ {chars : List Char}, (∀ c ∈ chars.head?, isSpace c = false) →
      chars.dropWhile isSpace = chars := by
    intro chars visible
    cases chars with
    | nil => rfl
    | cons c chars => exact List.dropWhile_cons_of_neg (by simp [visible c rfl])
  rw [trim, trimStart, keeps first, trimEnd, keeps (by rwa [List.head?_reverse]),
    List.reverse_reverse]

/-- A visible character at the start of a text is not trimmed away. -/
theorem exists_trimEnd_eq_cons {c : Char} (visible : isSpace c = false) (rest : List Char) :
    ∃ tail, trimEnd (c :: rest) = c :: tail := by
  refine ⟨(rest.reverse.dropWhile isSpace).reverse, ?_⟩
  rw [trimEnd, List.reverse_cons, (span_append_cons visible _ []).2, List.reverse_append]
  rfl

/-- Nothing is left of a blank text. -/
theorem trim_of_all_isSpace {text : List Char} (blank : text.all isSpace = true) :
    trim text = [] := by
  have start : text.dropWhile isSpace = [] := by
    rw [← List.append_nil text, List.dropWhile_append_of_pos (List.all_eq_true.mp blank)]
    rfl
  rw [trim, trimStart, start]
  rfl

/-- What is left of another text starts with its first visible character. -/
theorem exists_trim_eq_cons {blanks : List Char} {c : Char} (blank : blanks.all isSpace = true)
    (visible : isSpace c = false) (rest : List Char) :
    ∃ tail, trim (blanks ++ c :: rest) = c :: tail := by
  rw [trim, trimStart, List.dropWhile_append_of_pos (List.all_eq_true.mp blank),
    List.dropWhile_cons_of_neg (by simp [visible])]
  exact exists_trimEnd_eq_cons visible rest

/-- Behind the white space at its start a text goes on with a visible character. -/
theorem isSpace_head?_dropWhile (text : List Char) :
    ∀ c ∈ (text.dropWhile isSpace).head?, isSpace c = false := by
  intro c isFirst
  have visible := List.head?_dropWhile_not isSpace text
  rw [Option.mem_def.mp isFirst] at visible
  simpa using visible

/-- If nothing is left of a text, it is blank. -/
theorem all_isSpace_of_trim_eq_nil {text : List Char} (isNil : trim text = []) :
    text.all isSpace = true := by
  have starts := isSpace_head?_dropWhile text
  cases visible : text.dropWhile isSpace with
  | nil =>
      have whole := @List.takeWhile_append_dropWhile _ isSpace text
      rw [visible, List.append_nil] at whole
      rw [← whole]
      exact List.all_takeWhile
  | cons c rest =>
      rw [visible] at starts
      rcases exists_trimEnd_eq_cons (starts c rfl) rest with ⟨tail, isCons⟩
      rw [trim, trimStart, visible, isCons] at isNil
      cases isNil

/-- What is left of a text starts with a visible character. -/
theorem isSpace_head?_trim (text : List Char) :
    ∀ c ∈ (trim text).head?, isSpace c = false := by
  have starts := isSpace_head?_dropWhile text
  unfold trim trimStart
  cases visible : text.dropWhile isSpace with
  | nil =>
      intro c isFirst
      cases isFirst
  | cons c rest =>
      rw [visible] at starts
      rcases exists_trimEnd_eq_cons (starts c rfl) rest with ⟨tail, isCons⟩
      rw [isCons]
      exact starts

/-- What is left of a text has no white space around it. -/
theorem trim_trim (text : List Char) : trim (trim text) = trim text := by
  refine trim_eq_self (isSpace_head?_trim text) ?_
  rw [trim, trimEnd, List.getLast?_reverse]
  exact isSpace_head?_dropWhile _

/-! ## Lines -/

/-- A text without line feeds is one line. -/
theorem lines_of_not_mem {text : List Char} (oneLine : '\n' ∉ text) (notNil : text ≠ []) :
    lines text = [text] := by
  fun_induction lines text with
  | case1 => exact absurd rfl notNil
  | case2 | case3 => simp at oneLine
  | case4 c rest _ _ none ih =>
      rw [List.mem_cons, not_or] at oneLine
      by_cases isNil : rest = []
      · rw [isNil]
      · rw [ih oneLine.2 isNil] at none
        cases none
  | case5 c rest _ _ line others some ih =>
      rw [List.mem_cons, not_or] at oneLine
      by_cases isNil : rest = []
      · rw [isNil] at some
        cases some
      · rw [ih oneLine.2 isNil] at some
        cases some
        rfl

/-- No line has a line feed in it. -/
theorem not_mem_of_mem_lines {text line : List Char} (member : line ∈ lines text) :
    '\n' ∉ line := by
  fun_induction lines text generalizing line with
  | case1 => cases member
  | case2 rest ih | case3 rest ih =>
      rcases List.mem_cons.mp member with rfl | member
      · simp
      · exact ih member
  | case4 c rest noFeed _ _ _ =>
      rw [List.mem_singleton.mp member, List.mem_singleton]
      rintro rfl
      exact noFeed rfl
  | case5 c rest noFeed _ first others isLines ih =>
      rcases List.mem_cons.mp member with rfl | member
      · rw [List.mem_cons, not_or]
        refine ⟨?_, ih (isLines ▸ List.mem_cons_self)⟩
        rintro rfl
        exact noFeed rfl
      · exact ih (isLines ▸ List.mem_cons_of_mem _ member)

/-- Whether a text consists of whole lines: nothing follows its last line feed. -/
def EndsLine (text : List Char) : Prop :=
  text = [] ∨ text.getLast? = some '\n'

theorem EndsLine.tail {c : Char} {rest : List Char} (ends : EndsLine (c :: rest)) :
    EndsLine rest := by
  cases rest with
  | nil => exact .inl rfl
  | cons d rest =>
      rcases ends with isNil | isFeed
      · cases isNil
      · exact .inr (by rwa [List.getLast?_cons_cons] at isFeed)

theorem EndsLine.of_append {first second : List Char} (ends : EndsLine (first ++ second)) :
    EndsLine second := by
  induction first with
  | nil => exact ends
  | cons c rest ih => exact ih ends.tail

/-- A text that starts with another character than a line feed has more lines to
come if it consists of whole lines. -/
theorem EndsLine.exists_cons {c : Char} {rest : List Char} (ends : EndsLine (c :: rest))
    (noFeed : c ≠ '\n') : ∃ d others, rest = d :: others := by
  cases rest with
  | nil =>
      rcases ends with isNil | isFeed
      · cases isNil
      · exact absurd (Option.some.inj isFeed) noFeed
  | cons d others => exact ⟨d, others, rfl⟩

theorem lines_ne_nil {text : List Char} (notNil : text ≠ []) : lines text ≠ [] := by
  fun_cases lines text with
  | case1 => exact absurd rfl notNil
  | case2 | case3 | case4 | case5 => simp

/-- Behind whole lines the lines of a text are counted on. -/
theorem lines_append {first : List Char} (ends : EndsLine first) (second : List Char) :
    lines (first ++ second) = lines first ++ lines second := by
  fun_induction lines first with
  | case1 => rfl
  | case2 rest ih =>
      rw [List.cons_append, lines, ih ends.tail, List.cons_append]
  | case3 rest ih =>
      rw [List.cons_append, List.cons_append, lines, ih ends.tail.tail, List.cons_append]
  | case4 c rest noFeed _ isLast _ =>
      rcases ends.exists_cons noFeed with ⟨d, others, rfl⟩
      exact absurd isLast (lines_ne_nil (List.cons_ne_nil d others))
  | case5 c rest noFeed noReturn line others isLines ih =>
      rcases ends.exists_cons noFeed with ⟨d, more, rfl⟩
      have goesOn := ih ends.tail
      rw [isLines] at goesOn
      rw [List.cons_append, lines.eq_4 c _ noFeed, goesOn]
      · rfl
      · rintro left rfl isFeed
        cases isFeed
        exact noReturn more rfl rfl

end AnalyzerGlue.Text
