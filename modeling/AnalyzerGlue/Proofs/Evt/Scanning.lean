import AnalyzerGlue.Proofs.Evt.Steps
import AnalyzerGlue.Proofs.Text.Space

/-!
# Lines of chunks

The scanner counts line feeds, in and outside of strings and comments.  So the
line that it has reached is one more than the number of line feeds before its
place, and the line of a chunk is that of its first visible character.
-/

namespace AnalyzerGlue.Evt

open AnalyzerGlue.Text

/-- Whether a character occurs on a line of a text; lines are counted from one. -/
def OnLine (text : List Char) (c : Char) (line : Nat) : Prop :=
  ∃ before behind, text = before ++ c :: behind ∧ line = before.count '\n' + 1

namespace Scanner

/-! ## One chunk -/

/-- What has been read of a chunk fits to what is before the place in the text
that has been reached. -/
structure Partial.Tracks (text before : List Char) (read : Partial) : Prop where
  line : read.line = before.count '\n' + 1
  blank : read.start = none → read.kept.all isSpace = true
  started : ∀ {line}, read.start = some line → ∃ blanks c rest,
    read.kept.reverse = blanks ++ c :: rest ∧ blanks.all isSpace = true ∧
      isSpace c = false ∧ OnLine text c line

namespace Partial.Tracks

variable {text before rest : List Char} {read : Partial} {c : Char}

theorem empty {line : Nat} (isLine : line = before.count '\n' + 1) :
    Tracks text before (.empty line) :=
  ⟨isLine, fun _ => rfl, fun absurd => by cases absurd⟩

theorem count_append_singleton (before : List Char) (c : Char) :
    (before ++ [c]).count '\n' = if c = '\n' then before.count '\n' + 1 else before.count '\n' := by
  rw [List.count_append, List.count_singleton]
  by_cases isFeed : c = '\n' <;> simp [isFeed]

/-- A character that is kept moves the place, and may be the first visible one. -/
theorem keep (tracks : Tracks text before read) (split : text = before ++ c :: rest)
    (mode : Mode) : Tracks text (before ++ [c]) (read.keep mode c) := by
  have extended : ∀ {line}, read.start = some line → ∃ blanks d others,
      (c :: read.kept).reverse = blanks ++ d :: others ∧ blanks.all isSpace = true ∧
        isSpace d = false ∧ OnLine text d line := by
    intro line isStart
    rcases tracks.started isStart with ⟨blanks, d, others, isKept, blank, visible, onLine⟩
    refine ⟨blanks, d, others ++ [c], ?_, blank, visible, onLine⟩
    rw [List.reverse_cons, isKept, List.append_assoc, List.cons_append]
  refine ⟨?_, ?_, ?_⟩
  · simp only [Partial.keep, count_append_singleton, tracks.line]
    split <;> rfl
  · intro unstarted
    simp only [Partial.keep] at unstarted
    split at unstarted
    · rename_i isBlank
      simp [Partial.keep, isBlank, tracks.blank unstarted]
    · cases unstarted
  · intro line isStart
    simp only [Partial.keep] at isStart
    split at isStart
    · exact extended isStart
    · rename_i visible
      cases isStarted : read.start with
      | none =>
          rw [isStarted] at isStart
          cases isStart
          exact ⟨read.kept.reverse, c, [], List.reverse_cons, by simp [tracks.blank isStarted],
            by simpa using visible, before, rest, split, tracks.line⟩
      | some first =>
          rw [isStarted] at isStart
          cases isStart
          exact extended isStarted

/-- A character of a comment moves the place within its line. -/
theorem skip (tracks : Tracks text before read) (sameLine : c ≠ '\n') (mode : Mode) :
    Tracks text (before ++ [c]) { read with mode := mode } :=
  ⟨by rw [count_append_singleton, if_neg sameLine, tracks.line], tracks.blank, tracks.started⟩

end Partial.Tracks

/-- What the result of the scanner says about the text: a chunk has the line of
its first character, an empty statement that of its semicolon, and the end of the
text is the line behind all line feeds. -/
def Reports (text : List Char) : Scanned → Prop
  | .chunk chunk => ∃ c tail, chunk.text = c :: tail ∧ c ≠ '\n' ∧ OnLine text c chunk.line
  | .error cause line =>
      cause = .emptyStatement ∧ OnLine text ';' line ∨
        cause = .unexpectedEnd ∧ line = text.count '\n' + 1
  | .finished => True

/-- Whether the scanner is at a place of the text, and counts its line. -/
def At (text : List Char) (scanner : Scanner) : Prop :=
  ∃ before, text = before ++ scanner.rest ∧ scanner.line = before.count '\n' + 1

theorem reports_close {text before rest : List Char} {read : Partial}
    (tracks : read.Tracks text before) (split : text = before ++ ';' :: rest) :
    Reports text read.close := by
  cases isStart : read.start with
  | none =>
      have isNil : read.text = [] := trim_of_all_isSpace (by simp [tracks.blank isStart])
      simp only [Partial.close, isNil, isStart]
      exact .inl ⟨rfl, before, rest, split, tracks.line⟩
  | some line =>
      rcases tracks.started isStart with ⟨blanks, c, others, isKept, blank, visible, onLine⟩
      rcases exists_trim_eq_cons blank visible others with ⟨tail, trimmed⟩
      have isText : read.text = c :: tail := by rw [Partial.text, isKept, trimmed]
      simp only [Partial.close, isText, isStart]
      refine ⟨c, tail ++ [';'], rfl, ?_, onLine⟩
      rintro rfl
      exact absurd visible (by decide)

theorem reports_finish {text : List Char} {read : Partial} (tracks : read.Tracks text text) :
    Reports text read.finish := by
  unfold Partial.finish
  split
  · trivial
  · exact .inr ⟨rfl, tracks.line⟩

/-- The scanner goes on behind a chunk at a place of the text again. -/
theorem nextFrom_reports {text before rest : List Char} {read : Partial}
    (tracks : read.Tracks text before) (split : text = before ++ rest) :
    Reports text (nextFrom read rest).1 ∧ At text (nextFrom read rest).2 := by
  induction rest generalizing before read with
  | nil =>
      rw [List.append_nil] at split
      subst split
      exact ⟨reports_finish tracks, text, (List.append_nil text).symm, tracks.line⟩
  | cons c rest ih =>
      have splitBehind : text = (before ++ [c]) ++ rest := by
        rw [split, List.append_assoc]
        rfl
      have keeps : ∀ mode, Reports text (nextFrom (read.keep mode c) rest).1 ∧
          At text (nextFrom (read.keep mode c) rest).2 :=
        fun mode => ih (tracks.keep split mode) splitBehind
      have skips : c ≠ '\n' → ∀ mode, Reports text (nextFrom { read with mode := mode } rest).1 ∧
          At text (nextFrom { read with mode := mode } rest).2 :=
        fun sameLine mode => ih (tracks.skip sameLine mode) splitBehind
      unfold nextFrom
      split
      · split
        · exact keeps _
        · split
          · exact keeps _
          · split
            · rename_i isComment
              exact skips (by rw [isComment]; decide) _
            · split
              · rename_i isEnd
                subst isEnd
                refine ⟨reports_close tracks split, before ++ [';'], splitBehind, ?_⟩
                exact (tracks.skip (by decide) read.mode).line
              · exact keeps _
      · split <;> exact keeps _
      · split
        · exact keeps _
        · rename_i sameLine
          exact skips sameLine read.mode

/-! ## All chunks -/

/-- Every result of the scanner reports a line of the text. -/
theorem all_reports {text : List Char} {scanner : Scanner} (isAt : At text scanner) :
    ∀ result ∈ scanner.all, Reports text result.1 := by
  fun_induction all scanner with
  | case1 scanner finished =>
      intro result member
      rw [List.mem_singleton.mp member]
      trivial
  | case2 scanner goesOn _ ih =>
      rcases isAt with ⟨before, split, isLine⟩
      rcases nextFrom_reports (.empty isLine) split with ⟨reports, isAtBehind⟩
      exact List.forall_mem_cons.mpr ⟨reports, ih isAtBehind⟩

end Scanner

end AnalyzerGlue.Evt
