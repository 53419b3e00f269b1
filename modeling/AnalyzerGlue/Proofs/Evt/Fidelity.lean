import Mathlib.Data.List.Forall2
import AnalyzerGlue.Evt.Load
import AnalyzerGlue.Proofs.Evt.Filtering
import AnalyzerGlue.Proofs.Evt.Outcome

/-!
# Locations of declarations and errors

The lines that loading a source reports are lines of the source itself: a chunk
is on the line where its first character is, a declaration is where its chunk
is, and an error is at the line that it is about.  Only the end of the source is
reported behind its last line.
-/

namespace AnalyzerGlue

open AnalyzerGlue.Text AnalyzerGlue.Evt

/-! ## Chunks -/

/-- Whether a chunk is on the line of the source where its first character is, and
this line is no directive. -/
def Evt.Chunk.StartsIn (source : List Char) (chunk : Chunk) : Prop :=
  ∃ c tail, chunk.text = c :: tail ∧ OnSourceLine source c chunk.line

/-- The chunk of a result, if it has one. -/
def Evt.Scanned.chunk? : Scanned → Option Chunk
  | .chunk delivered => some delivered
  | .error _ _ | .finished => none

theorem Evt.mem_of_mem_filterMap_chunk? {scanned : List Scanned} {chunk : Chunk}
    (member : chunk ∈ scanned.filterMap Scanned.chunk?) : .chunk chunk ∈ scanned := by
  rcases List.mem_filterMap.mp member with ⟨result, memberScanned, isChunk⟩
  cases result with
  | chunk delivered =>
      cases isChunk
      exact memberScanned
  | error | finished => cases isChunk

/-- The results of the scanner for a text. -/
def Evt.results (text : List Char) : List Scanned :=
  (Scanner.start text).all.map Prod.fst

theorem Evt.results_report {text : List Char} :
    ∀ result ∈ results text, Scanner.Reports text result := by
  have isAt : Scanner.At text (Scanner.start text) := ⟨[], rfl, rfl⟩
  intro result member
  rcases List.mem_map.mp member with ⟨pair, memberAll, rfl⟩
  exact Scanner.all_reports isAt pair memberAll

section

variable {version : Nat} {path : Path} {source text : List Char}

/-- Every chunk of the text that is left starts on its line of the source. -/
theorem Evt.startsIn_of_mem_results
    (filtered : ((Conditional.start version).filter path source).2 = .ok text) {chunk : Chunk}
    (member : .chunk chunk ∈ results text) : chunk.StartsIn source := by
  rcases results_report _ member with ⟨c, tail, isText, visible, onLine⟩
  exact ⟨c, tail, isText, onSourceLine_of_onLine filtered visible onLine⟩

/-- An error of the scanner is on a line of the source, or at its end. -/
theorem Evt.bounds_of_mem_results
    (filtered : ((Conditional.start version).filter path source).2 = .ok text) {cause : EvtError}
    {line : Nat} (member : .error cause line ∈ results text) :
    (cause = .unexpectedEnd → line = (lines source).length + 1) ∧
      (cause ≠ .unexpectedEnd → 1 ≤ line ∧ line ≤ (lines source).length) := by
  rcases results_report _ member with ⟨rfl, onLine⟩ | ⟨rfl, isLine⟩
  · have onSource := onSourceLine_of_onLine filtered (by decide) onLine
    exact ⟨fun isEnd => (by cases isEnd), fun _ => onSource.bounds⟩
  · rw [count_of_filter_eq_ok filtered] at isLine
    exact ⟨fun _ => isLine, fun other => absurd rfl other⟩

end

/-! ## Loading -/

namespace Store

variable {path : Path} {version : Nat}

/-- If all results are added, the statements of the chunks are. -/
theorem exists_of_addAll_eq_ok {store final : Store} {scanned : List Scanned}
    (added : addAll path version store scanned = .ok final) :
    ∃ statements, List.Forall₂
        (fun chunk statement =>
          Statement.parse chunk.text ⟨path, chunk.line⟩ version = .ok statement)
        (scanned.filterMap Scanned.chunk?) statements ∧
      final = statements.foldl addStatement store := by
  induction scanned generalizing store with
  | nil =>
      cases added
      exact ⟨[], .nil, rfl⟩
  | cons first others ih =>
      cases first with
      | finished => exact ih added
      | error cause line => cases added
      | chunk delivered =>
          rw [addAll, addScanned] at added
          cases read : Statement.parse delivered.text ⟨path, delivered.line⟩ version with
          | error cause =>
              simp only [read] at added
              cases added
          | ok statement =>
              simp only [read] at added
              rcases ih added with ⟨statements, each, isFinal⟩
              exact ⟨statement :: statements, .cons read each, isFinal⟩

/-- The first result that cannot be added is an error of the scanner or a chunk
that is no statement. -/
theorem exists_of_addAll_eq_error {store : Store} {scanned : List Scanned}
    {error : Located EvtError} (failed : addAll path version store scanned = .error error) :
    (∃ cause line, .error cause line ∈ scanned ∧ error = .reportedAt cause ⟨path, line⟩) ∨
      ∃ chunk cause, .chunk chunk ∈ scanned ∧
        Statement.parse chunk.text ⟨path, chunk.line⟩ version = .error cause ∧
        error = .reportedAt cause ⟨path, chunk.line⟩ := by
  induction scanned generalizing store with
  | nil => cases failed
  | cons first others ih =>
      have later : ∀ {next : Store}, addAll path version next others = .error error →
          (∃ cause line, .error cause line ∈ first :: others ∧
            error = .reportedAt cause ⟨path, line⟩) ∨
          ∃ chunk cause, .chunk chunk ∈ first :: others ∧
            Statement.parse chunk.text ⟨path, chunk.line⟩ version = .error cause ∧
            error = .reportedAt cause ⟨path, chunk.line⟩ := by
        intro next failedLater
        rcases ih failedLater with ⟨cause, line, member, isError⟩ | ⟨chunk, cause, member, known⟩
        · exact .inl ⟨cause, line, List.mem_cons_of_mem _ member, isError⟩
        · exact .inr ⟨chunk, cause, List.mem_cons_of_mem _ member, known⟩
      cases first with
      | finished => exact later failed
      | error cause line =>
          cases failed
          exact .inl ⟨cause, line, List.mem_cons_self, rfl⟩
      | chunk delivered =>
          rw [addAll, addScanned] at failed
          cases read : Statement.parse delivered.text ⟨path, delivered.line⟩ version with
          | error cause =>
              simp only [read] at failed
              cases failed
              exact .inr ⟨delivered, cause, List.mem_cons_self, read, rfl⟩
          | ok statement =>
              simp only [read] at failed
              exact later failed

section

variable {source : List Char}

/-- A source is loaded if all chunks of the text that is left are statements. -/
theorem exists_of_load_eq_ok {store : Store} (loaded : load path source version = .ok store) :
    ∃ text statements, ((Conditional.start version).filter path source).2 = .ok text ∧
      List.Forall₂
        (fun chunk statement =>
          Statement.parse chunk.text ⟨path, chunk.line⟩ version = .ok statement)
        ((results text).filterMap Scanned.chunk?) statements ∧
      store = statements.foldl addStatement empty := by
  unfold load at loaded
  split at loaded
  · cases loaded
  · rename_i text filtered
    rcases exists_of_addAll_eq_ok loaded with ⟨statements, each, isFinal⟩
    exact ⟨text, statements, filtered, each, isFinal⟩

/-- An error is located at a line of the source, or at its end. -/
theorem exists_line_of_load_eq_error {error : Located EvtError}
    (failed : load path source version = .error error) :
    ∃ line, error.location = some ⟨path, line⟩ ∧
      (error.cause = .unexpectedEnd → line = (lines source).length + 1) ∧
      (error.cause ≠ .unexpectedEnd → 1 ≤ line ∧ line ≤ (lines source).length) := by
  unfold load at failed
  split at failed
  · rename_i failedFilter
    cases failed
    rcases Conditional.exists_of_filter_eq_error failedFilter with ⟨cause, line, rfl, known, bounds⟩
    exact ⟨line, rfl, fun isEnd => absurd isEnd known, fun _ => bounds⟩
  · rename_i text filtered
    rcases exists_of_addAll_eq_error failed with
      ⟨cause, line, member, rfl⟩ | ⟨chunk, cause, member, failedParse, rfl⟩
    · exact ⟨line, rfl, bounds_of_mem_results filtered member⟩
    · rcases startsIn_of_mem_results filtered member with ⟨c, tail, _, onLine⟩
      exact ⟨chunk.line, rfl,
        fun isEnd => absurd isEnd (Statement.ne_unexpectedEnd_of_parse failedParse),
        fun _ => onLine.bounds⟩

end

/-- The lines of loading a source.  Every chunk of the text that is left starts on
its line of the source, and this line is no directive.  The declarations of a
source that is loaded are those of its chunks, and each is located at the line
of its chunk.  An error is located at a line of the source, or right behind the
last one if it says that the source ends too early. -/
theorem load_lines (path : Path) (source : List Char) (version : Nat) :
    (∀ text, ((Conditional.start version).filter path source).2 = .ok text →
      ∀ chunk, .chunk chunk ∈ results text →
        (1 ≤ chunk.line ∧ chunk.line ≤ (lines source).length) ∧ chunk.StartsIn source) ∧
    (∀ store, load path source version = .ok store →
      ∃ text statements, ((Conditional.start version).filter path source).2 = .ok text ∧
        List.Forall₂
          (fun chunk statement =>
            chunk.StartsIn source ∧
              Statement.parse chunk.text ⟨path, chunk.line⟩ version = .ok statement ∧
              ∀ location ∈ statement.location?, location = ⟨path, chunk.line⟩)
          ((results text).filterMap Scanned.chunk?) statements ∧
        store = statements.foldl addStatement empty) ∧
    ∀ error, load path source version = .error error →
      ∃ line, error.location = some ⟨path, line⟩ ∧
        (error.cause = .unexpectedEnd → line = (lines source).length + 1) ∧
        (error.cause ≠ .unexpectedEnd → 1 ≤ line ∧ line ≤ (lines source).length) := by
  refine ⟨?_, ?_, ?_⟩
  · intro text filtered chunk member
    rcases startsIn_of_mem_results filtered member with ⟨c, tail, isText, onLine⟩
    exact ⟨onLine.bounds, c, tail, isText, onLine⟩
  · intro store loaded
    rcases exists_of_load_eq_ok loaded with ⟨text, statements, filtered, each, isFinal⟩
    refine ⟨text, statements, filtered, (List.forall₂_and_left _ _).mpr ⟨?_, ?_⟩, isFinal⟩
    · intro chunk member
      exact startsIn_of_mem_results filtered (mem_of_mem_filterMap_chunk? member)
    · refine each.imp fun chunk statement read => ⟨read, ?_⟩
      exact Statement.eq_location_of_parse read
  · intro error failed
    exact exists_line_of_load_eq_error failed

/-- A source with a group, a comment that holds a semicolon and a statement on two
lines.  Its exports are on lines two and four. -/
theorem load_lines_directives :
    let path : Path := ⟨"x.evt"⟩
    let source := "@if HOST_VERSION\nexport A; # b;\n@endif\n export\r\nB;".toList
    load path source 6 = .ok { empty with exports :=
        [⟨⟨"A"⟩, ⟨path, 2⟩⟩, ⟨⟨"B"⟩, ⟨path, 4⟩⟩] } ∧
      ∃ text, ((Conditional.start 6).filter path source).2 = .ok text ∧
        ∀ chunk, .chunk chunk ∈ results text → chunk.StartsIn source := by
  have loaded : load ⟨"x.evt"⟩
      "@if HOST_VERSION\nexport A; # b;\n@endif\n export\r\nB;".toList 6 =
      .ok { empty with exports :=
        [⟨⟨"A"⟩, ⟨⟨"x.evt"⟩, 2⟩⟩, ⟨⟨"B"⟩, ⟨⟨"x.evt"⟩, 4⟩⟩] } := by with_unfolding_all rfl
  intro path source
  rcases load_lines path source 6 with ⟨starts, declares, _⟩
  rcases declares _ loaded with ⟨text, statements, filtered, _⟩
  exact ⟨loaded, text, filtered, fun chunk member => (starts text filtered chunk member).2⟩

end Store

end AnalyzerGlue
