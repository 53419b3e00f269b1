import Mathlib.Data.List.TakeWhile
import AnalyzerGlue.Proofs.Evt.Scanning

/-!
# The scanner as one pass over a source

The scanner starts anew for each chunk.  Here a source is gone over once, from its start to
its end: comments are dropped, and every semicolon that is neither in a string nor escaped
is a terminator.  The terminators cut the source into segments, and the results of the
scanner are those of the segments, one by one.

What has been read of a chunk is what the pass has marked since the last terminator
(`Partial.Reads`).  This holds at each character, and starting anew behind a terminator
changes nothing, because the pass is in plain text there and behind no backslash.
-/

namespace AnalyzerGlue.Evt

open AnalyzerGlue.Text

/-! ## One pass over a source -/

/-- What becomes of a character of a source. -/
inductive Role where
  | kept
  | dropped
  | terminator
deriving DecidableEq, Repr

/-- A character of a source and what becomes of it. -/
structure Mark where
  char : Char
  role : Role
deriving DecidableEq, Repr

/-- Whether the character is kept and is no white space. -/
def Mark.isVisible (mark : Mark) : Bool :=
  mark.role == .kept && !isSpace mark.char

namespace Scanner

/-- The state of a pass over a source. -/
structure Pass where
  mode : Mode
  /-- Whether the last character that was not dropped is a backslash. -/
  escaped : Bool
deriving DecidableEq, Repr

namespace Pass

/-- The start of a source. -/
def start : Pass :=
  ⟨.plain, false⟩

/-- What becomes of the next character.  A comment goes from a number sign up to the end of
its line. -/
def role (pass : Pass) (c : Char) : Role :=
  match pass.mode with
  | .plain =>
      if pass.escaped then .kept
      else if c = '#' then .dropped
      else if c = ';' then .terminator
      else .kept
  | .string => .kept
  | .comment => if c = '\n' then .kept else .dropped

/-- Where the pass is behind a character.  Quotes that are not escaped open and close
strings. -/
def modeBehind (pass : Pass) (c : Char) : Mode :=
  match pass.mode with
  | .plain =>
      if pass.escaped then .plain
      else if c = '"' then .string
      else if c = '#' then .comment
      else .plain
  | .string => if c = '"' ∧ ¬ pass.escaped then .plain else .string
  | .comment => if c = '\n' then .plain else .comment

/-- The pass behind a character. -/
def behind (pass : Pass) (c : Char) : Pass where
  mode := pass.modeBehind c
  escaped := if pass.role c = .dropped then pass.escaped else c == '\\'

/-- The marks of a text. -/
def marks (pass : Pass) : List Char → List Mark
  | [] => []
  | c :: rest => ⟨c, pass.role c⟩ :: (pass.behind c).marks rest

end Pass

/-- The parts of a text between its terminators. -/
def segments (pass : Pass) (text : List Char) : List (List Mark) :=
  (pass.marks text).splitOnP fun mark => mark.role == .terminator

/-! ## Results of segments -/

/-- The characters of a source in some of its marks. -/
def sourceOf (marks : List Mark) : List Char :=
  marks.map Mark.char

/-- The characters that are kept. -/
def keptOf (marks : List Mark) : List Char :=
  (marks.filter fun mark => mark.role == .kept).map Mark.char

/-- The characters of the source before the first visible one that is kept. -/
def leadOf (marks : List Mark) : List Char :=
  sourceOf (marks.takeWhile fun mark => !mark.isVisible)

/-- The line behind some text. -/
def lineBehind (before : List Char) : Nat :=
  before.count '\n' + 1

/-- The result for a segment that a terminator ends, where `before` is the source up to the
segment. -/
def closed (before : List Char) (segment : List Mark) : Scanned :=
  if (keptOf segment).all isSpace then
    .error .emptyStatement (lineBehind (before ++ sourceOf segment))
  else .chunk ⟨trim (keptOf segment) ++ [';'], lineBehind (before ++ leadOf segment)⟩

/-- The results for the segments of a source from one of them on, each with the line behind
all that has been read.  The last segment has no terminator. -/
def reports (before : List Char) : List (List Mark) → List (Scanned × Nat)
  | [] => []
  | [remainder] =>
      let line := lineBehind (before ++ sourceOf remainder)
      if (keptOf remainder).all isSpace then [(.finished, line)]
      else [(.error .unexpectedEnd line, line), (.finished, line)]
  | segment :: next :: others =>
      let behind := before ++ sourceOf segment ++ [';']
      (closed before segment, lineBehind behind) :: reports behind (next :: others)

/-! ## What has been read of a chunk -/

/-- What has been read of a chunk are the marks since the last terminator. -/
structure Partial.Reads (before : List Char) (marks : List Mark) (pass : Pass) (read : Partial) :
    Prop where
  mode : read.mode = pass.mode
  escaped : read.escaped = pass.escaped
  kept : read.kept.reverse = keptOf marks
  start : read.start =
    if (keptOf marks).all isSpace then none else some (lineBehind (before ++ leadOf marks))
  line : read.line = lineBehind (before ++ sourceOf marks)

theorem sourceOf_concat (marks : List Mark) (mark : Mark) :
    sourceOf (marks ++ [mark]) = sourceOf marks ++ [mark.char] := by
  simp [sourceOf]

theorem keptOf_concat_kept (marks : List Mark) (c : Char) :
    keptOf (marks ++ [⟨c, .kept⟩]) = keptOf marks ++ [c] := by
  simp [keptOf]

theorem keptOf_concat_dropped (marks : List Mark) (c : Char) :
    keptOf (marks ++ [⟨c, .dropped⟩]) = keptOf marks := by
  simp [keptOf]

theorem lineBehind_concat (before : List Char) (c : Char) :
    lineBehind (before ++ [c]) = if c = '\n' then lineBehind before + 1 else lineBehind before := by
  rw [lineBehind, Partial.Tracks.count_append_singleton]
  split <;> rfl

theorem all_isSpace_keptOf_iff {marks : List Mark} :
    (keptOf marks).all isSpace = true ↔ ∀ mark ∈ marks, (!mark.isVisible) = true := by
  simp [keptOf, Mark.isVisible]

/-- As long as all that is kept is blank, all that has been read is before the first visible
character. -/
theorem leadOf_append_of_blank {marks : List Mark} (blank : (keptOf marks).all isSpace = true)
    (others : List Mark) : leadOf (marks ++ others) = sourceOf marks ++ leadOf others := by
  rw [leadOf, List.takeWhile_append_of_pos (all_isSpace_keptOf_iff.mp blank), sourceOf,
    List.map_append]
  rfl

/-- Behind a visible character nothing is. -/
theorem leadOf_append_of_visible {marks : List Mark}
    (visible : ¬ (keptOf marks).all isSpace = true) (others : List Mark) :
    leadOf (marks ++ others) = leadOf marks := by
  have stops : (marks.takeWhile fun mark => !mark.isVisible).length ≠ marks.length := by
    intro whole
    apply visible
    rw [all_isSpace_keptOf_iff, ← List.takeWhile_eq_self_iff]
    exact (List.takeWhile_prefix _).eq_of_length whole
  rw [leadOf, List.takeWhile_append, if_neg stops, leadOf]

/-- A character that is dropped is in a comment, which ends with its line. -/
theorem Pass.modeBehind_of_dropped {pass : Pass} {c : Char} (isDropped : pass.role c = .dropped) :
    pass.modeBehind c = .comment ∧ c ≠ '\n' := by
  rcases pass with ⟨mode, escaped⟩
  cases mode with
  | plain =>
      by_cases isComment : c = '#'
      · subst isComment
        cases escaped with
        | true => cases isDropped
        | false => exact ⟨rfl, by decide⟩
      · simp only [role, isComment, if_false] at isDropped
        split at isDropped
        · cases isDropped
        · split at isDropped <;> cases isDropped
  | string => cases isDropped
  | comment =>
      by_cases isFeed : c = '\n'
      · simp [role, isFeed] at isDropped
      · exact ⟨by simp [modeBehind, isFeed], isFeed⟩

/-- Behind a terminator the pass is as it was at the start. -/
theorem Pass.behind_of_terminator {pass : Pass} {c : Char}
    (isTerminator : pass.role c = .terminator) : c = ';' ∧ pass.behind c = .start := by
  rcases pass with ⟨mode, escaped⟩
  cases mode with
  | plain =>
      cases escaped with
      | true => cases isTerminator
      | false =>
          by_cases isEnd : c = ';'
          · subst isEnd
            exact ⟨rfl, rfl⟩
          · simp only [role, isEnd, if_false, Bool.false_eq_true] at isTerminator
            split at isTerminator <;> cases isTerminator
  | string => cases isTerminator
  | comment =>
      simp only [role] at isTerminator
      split at isTerminator <;> cases isTerminator

namespace Partial.Reads

variable {before : List Char} {marks : List Mark} {pass : Pass} {read : Partial} {c : Char}

theorem empty (before : List Char) : Reads before [] .start (.empty (lineBehind before)) where
  mode := rfl
  escaped := rfl
  kept := rfl
  start := rfl
  line := by simp [Partial.empty, sourceOf]

/-- A character that is kept may be the first visible one. -/
theorem keep (reads : Reads before marks pass read) (isKept : pass.role c = .kept) :
    Reads before (marks ++ [⟨c, .kept⟩]) (pass.behind c) (read.keep (pass.modeBehind c) c) where
  mode := rfl
  escaped := by simp [Partial.escaped, Partial.keep, Pass.behind, isKept]
  kept := by simp [Partial.keep, keptOf_concat_kept, reads.kept]
  start := by
    simp only [Partial.keep, reads.start, reads.line, keptOf_concat_kept]
    by_cases blank : (keptOf marks).all isSpace = true
    · cases isBlank : isSpace c with
      | true => simp [blank, isBlank]
      | false =>
          have noLead : leadOf [⟨c, .kept⟩] = [] := by
            simp [leadOf, sourceOf, Mark.isVisible, isBlank]
          simp [blank, isBlank, leadOf_append_of_blank, noLead]
    · simp [blank, leadOf_append_of_visible]
  line := by
    rw [sourceOf_concat, ← List.append_assoc, lineBehind_concat, ← reads.line]
    rfl

/-- A character that is dropped only moves the place within its line. -/
theorem drop (reads : Reads before marks pass read) (isDropped : pass.role c = .dropped) :
    Reads before (marks ++ [⟨c, .dropped⟩]) (pass.behind c) { read with mode := .comment } := by
  rcases Pass.modeBehind_of_dropped isDropped with ⟨isComment, sameLine⟩
  refine ⟨isComment.symm, ?_, ?_, ?_, ?_⟩
  · rw [Pass.behind, if_pos isDropped, ← reads.escaped]
    rfl
  · rw [keptOf_concat_dropped, ← reads.kept]
  · rw [keptOf_concat_dropped, reads.start]
    by_cases blank : (keptOf marks).all isSpace = true
    · rw [if_pos blank, if_pos blank]
    · rw [if_neg blank, if_neg blank, leadOf_append_of_visible blank]
  · rw [sourceOf_concat, ← List.append_assoc, lineBehind_concat, if_neg sameLine, ← reads.line]

theorem text_eq (reads : Reads before marks pass read) : read.text = trim (keptOf marks) := by
  rw [Partial.text, reads.kept]

/-- Nothing is left of what has been read exactly if it is blank. -/
theorem isEmpty_text_eq (reads : Reads before marks pass read) :
    read.text.isEmpty = (keptOf marks).all isSpace := by
  rw [reads.text_eq, Bool.eq_iff_iff, List.isEmpty_iff]
  exact ⟨all_isSpace_of_trim_eq_nil, trim_of_all_isSpace⟩

theorem close_eq (reads : Reads before marks pass read) : read.close = closed before marks := by
  rw [Partial.close, closed, reads.isEmpty_text_eq, reads.text_eq, reads.start, reads.line]
  split <;> rfl

theorem finish_eq (reads : Reads before marks pass read) :
    read.finish =
      if (keptOf marks).all isSpace then .finished
      else .error .unexpectedEnd (lineBehind (before ++ sourceOf marks)) := by
  rw [Partial.finish, reads.isEmpty_text_eq, reads.line]

end Partial.Reads

/-! ## Segments of a text -/

section

variable {pass : Pass} {c : Char}

theorem exists_segments_eq_cons (pass : Pass) (text : List Char) :
    ∃ first others, segments pass text = first :: others :=
  List.exists_cons_of_ne_nil (List.splitOnP_ne_nil _ _)

theorem segments_cons_of_terminator (isTerminator : pass.role c = .terminator)
    (rest : List Char) : segments pass (c :: rest) = [] :: segments .start rest := by
  rcases Pass.behind_of_terminator isTerminator with ⟨_, isStart⟩
  simp [segments, Pass.marks, List.splitOnP_cons_eq_if_modifyHead, isTerminator, isStart]

theorem segments_cons_of_ne (noTerminator : pass.role c ≠ .terminator) (rest : List Char) :
    segments pass (c :: rest) =
      (segments (pass.behind c) rest).modifyHead (⟨c, pass.role c⟩ :: ·) := by
  simp [segments, Pass.marks, List.splitOnP_cons_eq_if_modifyHead, noTerminator]

/-- The segments and their terminators are the whole text. -/
theorem intercalate_segments (pass : Pass) (text : List Char) :
    [';'].intercalate ((segments pass text).map sourceOf) = text := by
  induction text generalizing pass with
  | nil => simp [segments, Pass.marks, sourceOf]
  | cons c rest ih =>
      by_cases isTerminator : pass.role c = .terminator
      · rcases exists_segments_eq_cons .start rest with ⟨first, others, isFirst⟩
        have isRest := ih .start
        rw [isFirst, List.map_cons] at isRest
        rw [segments_cons_of_terminator isTerminator, isFirst, List.map_cons, List.map_cons,
          List.intercalate_cons_cons, isRest, (Pass.behind_of_terminator isTerminator).1]
        rfl
      · rcases exists_segments_eq_cons (pass.behind c) rest with ⟨first, others, isFirst⟩
        have isRest := ih (pass.behind c)
        rw [isFirst, List.map_cons] at isRest
        rw [segments_cons_of_ne isTerminator, isFirst, List.modifyHead_cons, List.map_cons,
          ← isRest]
        cases others with
        | nil => rfl
        | cons second others =>
            rw [List.map_cons, List.intercalate_cons_cons, List.intercalate_cons_cons]
            rfl

end

/-! ## Runs -/

/-- The scanner does with a character what its role in the pass says. -/
theorem nextFrom_of_reads {before : List Char} {marks : List Mark} {pass : Pass} {read : Partial}
    (reads : read.Reads before marks pass) (c : Char) (rest : List Char) :
    nextFrom read (c :: rest) =
      match pass.role c with
      | .kept => nextFrom (read.keep (pass.modeBehind c) c) rest
      | .dropped => nextFrom { read with mode := .comment } rest
      | .terminator => (read.close, ⟨rest, read.line⟩) := by
  have sameMode := reads.mode
  have sameEscape := reads.escaped
  rcases pass with ⟨mode, escaped⟩
  simp only at sameMode sameEscape
  rw [nextFrom, sameMode, sameEscape]
  cases mode with
  | plain =>
      cases escaped with
      | true => rfl
      | false =>
          simp only [Pass.role, Pass.modeBehind, Bool.false_eq_true, if_false]
          by_cases isQuote : c = '"'
          · subst isQuote
            rfl
          by_cases isComment : c = '#'
          · subst isComment
            rfl
          by_cases isEnd : c = ';'
          · subst isEnd
            rfl
          simp only [isQuote, isComment, isEnd, if_false]
  | string =>
      simp only [Pass.role, Pass.modeBehind]
      split <;> rfl
  | comment =>
      have same : ({ read with mode := .comment } : Partial) = read := by rw [← sameMode]
      simp only [Pass.role, Pass.modeBehind, same]
      split <;> rfl

/-- The results from within a chunk on. -/
def resultsFrom (read : Partial) (text : List Char) : List (Scanned × Nat) :=
  let (scanned, behind) := nextFrom read text
  if scanned = .finished then [(.finished, behind.line)]
  else (scanned, behind.line) :: behind.all

theorem all_eq_resultsFrom (scanner : Scanner) :
    scanner.all = resultsFrom (.empty scanner.line) scanner.rest := by
  rw [all]
  rfl

/-- At the end of a source there is nothing but the clean end. -/
theorem all_of_nil (line : Nat) : (Scanner.mk [] line).all = [(.finished, line)] :=
  @all_of_finished ⟨[], line⟩ ⟨[], line⟩ rfl

theorem closed_ne_finished (before : List Char) (segment : List Mark) :
    closed before segment ≠ .finished := by
  unfold closed
  split <;> simp

theorem modifyHead_nil_append (all : List (List Mark)) : all.modifyHead ([] ++ ·) = all := by
  cases all <;> rfl

/-- From within a chunk on, the results are those of the segments, the first of which has
been read up to the place of the scanner. -/
theorem resultsFrom_eq_reports {before : List Char} {marks : List Mark} {pass : Pass}
    {read : Partial} (reads : read.Reads before marks pass) (text : List Char) :
    resultsFrom read text = reports before ((segments pass text).modifyHead (marks ++ ·)) := by
  induction text generalizing before marks pass read with
  | nil =>
      have isSegment : (segments pass []).modifyHead (marks ++ ·) = [marks] := by
        simp [segments, Pass.marks]
      rw [isSegment, resultsFrom, nextFrom, reads.finish_eq, reads.line, reports]
      simp only [all_of_nil]
      split <;> rfl
  | cons c rest ih =>
      have step := nextFrom_of_reads reads c rest
      -- What has been read goes on with the character, unless this is a terminator.
      have goesOn : pass.role c ≠ .terminator → ∀ next : Partial,
          next.Reads before (marks ++ [⟨c, pass.role c⟩]) (pass.behind c) →
          nextFrom read (c :: rest) = nextFrom next rest →
          resultsFrom read (c :: rest) =
            reports before ((segments pass (c :: rest)).modifyHead (marks ++ ·)) := by
        intro noTerminator next readsNext isNext
        have isSegment : (segments pass (c :: rest)).modifyHead (marks ++ ·) =
            (segments (pass.behind c) rest).modifyHead (marks ++ [⟨c, pass.role c⟩] ++ ·) := by
          simp [segments_cons_of_ne noTerminator, List.modifyHead_modifyHead, Function.comp_def]
        rw [isSegment, ← ih readsNext, resultsFrom, isNext]
        rfl
      cases isRole : pass.role c with
      | kept =>
          rw [isRole] at step goesOn
          exact goesOn (by simp) _ (reads.keep isRole) step
      | dropped =>
          rw [isRole] at step goesOn
          exact goesOn (by simp) _ (reads.drop isRole) step
      | terminator =>
          rw [isRole] at step
          rcases Pass.behind_of_terminator isRole with ⟨rfl, _⟩
          rcases exists_segments_eq_cons .start rest with ⟨first, others, isFirst⟩
          have sameLine : read.line = lineBehind (before ++ sourceOf marks ++ [';']) := by
            rw [lineBehind_concat, if_neg (by decide), reads.line]
          rw [segments_cons_of_terminator isRole, List.modifyHead_cons, List.append_nil, isFirst,
            reports, ← isFirst, resultsFrom, step]
          simp only [reads.close_eq, if_neg (closed_ne_finished before marks), sameLine]
          rw [all_eq_resultsFrom, ih (.empty _), modifyHead_nil_append]

/-- The scanner goes over a source as one pass does.  The terminators of the pass cut the
source into segments, and the results of the scanner are one for each segment: the text that
is kept of it, on the line of its first visible character, or an error if there is none.
Behind the last terminator a blank segment is the clean end, which otherwise comes after an
error.  The line of the scanner is always the one behind all that has been read. -/
theorem all_eq_reports (source : List Char) :
    (Scanner.start source).all = reports [] (segments .start source) ∧
      [';'].intercalate ((segments .start source).map sourceOf) = source := by
  refine ⟨?_, intercalate_segments .start source⟩
  rw [all_eq_resultsFrom, ← modifyHead_nil_append (segments .start source)]
  exact resultsFrom_eq_reports (.empty []) source

/-- A source with an escaped semicolon, a comment and a string, each with a semicolon that is
no terminator. -/
example : (segments .start "a\\;b; # c;\n\"d;\"".toList).map keptOf =
    ["a\\;b".toList, " \n\"d;\"".toList] := by
  decide

end Scanner

end AnalyzerGlue.Evt
