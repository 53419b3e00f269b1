import AnalyzerGlue.Proofs.Evt.Fidelity
import AnalyzerGlue.Proofs.Evt.Relocation

/-!
# Sources in two parts

A source that is loaded leaves nothing behind: all groups are closed, and the
scanner is in no string, in no comment and behind no backslash, with at most
blanks that belong to the next statement.  So what follows it is loaded as if it
stood alone, on lines that are counted on.
-/

namespace AnalyzerGlue

open AnalyzerGlue.Text AnalyzerGlue.Evt

/-! ## Conditional parts -/

namespace Evt.Conditional

variable {path : Path}

/-- Directives do not change the version that conditions refer to. -/
theorem version_of_process {state next : Conditional} {directive condition : List Char}
    (processed : process directive condition state = .ok () next) :
    next.version = state.version := by
  rcases process_eq_ok_iff.mp processed with
    ⟨_, holds, _, rfl⟩ | ⟨_, group, outer, _, _, rfl⟩ | ⟨_, group, outer, _, rfl⟩ <;> rfl

theorem version_of_filterLines {number : Nat} {state final : Conditional}
    {all : List (List Char)} {result : Except (Located EvtError) (List (List Char))}
    (filtered : filterLines path number state all = (final, result)) :
    final.version = state.version := by
  fun_induction filterLines path number state all generalizing result with
  | case1 =>
      cases filtered
      rfl
  | case2 _ _ _ _ _ _ _ _ _ failed =>
      cases filtered
      rw [(of_process_eq_error failed).1]
  | case3 _ _ _ _ _ _ _ _ _ processed _ _ filteredRest ih =>
      cases filtered
      rw [ih filteredRest, version_of_process processed]
  | case4 _ _ _ _ _ _ _ filteredRest ih =>
      cases filtered
      exact ih filteredRest

/-- Lines that are counted on are filtered in the same way, and errors are found
further down. -/
theorem filterLines_below (number count : Nat) (state : Conditional) (all : List (List Char)) :
    filterLines path (number + count) state all =
      ((filterLines path number state all).1,
        (filterLines path number state all).2.mapError (Located.relocate (·.below count))) := by
  fun_induction filterLines path number state all with
  | case1 => rfl
  | case2 _ _ _ _ _ _ isDirective _ _ failed =>
      simp [filterLines, isDirective, failed, Except.mapError, Location.below]
  | case3 number _ _ _ _ _ isDirective _ next processed _ result filteredRest ih =>
      rw [filteredRest, Nat.add_right_comm] at ih
      simp only [filterLines, isDirective, processed, ih]
      cases result <;> rfl
  | case4 number state _ _ noDirective _ result filteredRest ih =>
      rw [filteredRest, Nat.add_right_comm] at ih
      simp only [filterLines, noDirective, ih]
      cases result <;> rfl

/-- Lines behind others are filtered from the state that these have led to. -/
theorem filterLines_append {number : Nat} {state middle : Conditional}
    {first kept : List (List Char)}
    (filtered : filterLines path number state first = (middle, .ok kept))
    (second : List (List Char)) :
    filterLines path number state (first ++ second) =
      ((filterLines path (number + first.length) middle second).1,
        (filterLines path (number + first.length) middle second).2.map (kept ++ ·)) := by
  fun_induction filterLines path number state first generalizing kept with
  | case1 number state =>
      cases filtered
      simp only [List.nil_append, List.length_nil, Nat.add_zero]
      rcases filterLines path number middle second with ⟨final, error | others⟩ <;> rfl
  | case2 => cases filtered
  | case3 number _ _ rest _ _ isDirective _ _ processed _ result filteredRest ih =>
      cases result with
      | error => cases filtered
      | ok others =>
          cases filtered
          simp only [List.cons_append, filterLines, isDirective, processed, ih filteredRest,
            List.length_cons, Nat.add_assoc, Nat.add_comm 1]
          cases (filterLines path (number + (rest.length + 1)) middle second).2 <;> rfl
  | case4 number _ _ rest noDirective _ result filteredRest ih =>
      cases result with
      | error => cases filtered
      | ok others =>
          cases filtered
          simp only [List.cons_append, filterLines, noDirective, ih filteredRest,
            List.length_cons, Nat.add_assoc, Nat.add_comm 1]
          cases (filterLines path (number + (rest.length + 1)) middle second).2 <;> rfl

/-- If a source is filtered, its lines have led back to a state without groups. -/
theorem exists_filterLines_of_filter_eq_ok {version : Nat} {source text : List Char}
    (filtered : ((start version).filter path source).2 = .ok text) :
    ∃ kept, filterLines path 1 (start version) (lines source) = (start version, .ok kept) ∧
      text = kept.flatMap fun line => line ++ ['\n'] := by
  unfold filter at filtered
  simp only at filtered
  split at filtered
  · cases filtered
  · rename_i final kept filteredLines
    split at filtered
    · cases filtered
    · rename_i isClosed
      cases filtered
      have sameVersion : final.version = version := version_of_filterLines filteredLines
      have noGroups : final.groups = [] := by simpa [isOpen] using isClosed
      have isStart : final = start version := by
        cases final
        cases sameVersion
        cases noGroups
        rfl
      exact ⟨kept, by rw [filteredLines, isStart], rfl⟩

/-- What is left of a source are whole lines. -/
theorem endsLine_of_filter_eq_ok {state : Conditional} {source text : List Char}
    (filtered : (state.filter path source).2 = .ok text) : EndsLine text := by
  rcases exists_of_filter_eq_ok filtered with ⟨kept, _, rfl⟩
  rcases List.eq_nil_or_concat kept with rfl | ⟨front, last, rfl⟩
  · exact .inl rfl
  · refine .inr ?_
    rw [List.concat_eq_append, List.flatMap_append, List.flatMap_singleton, ← List.append_assoc,
      List.getLast?_concat]

/-- Behind whole lines that are filtered, a source is filtered as if it stood
alone. -/
theorem filter_append {version : Nat} {first text : List Char} (ends : EndsLine first)
    (filtered : ((start version).filter path first).2 = .ok text) (second : List Char) :
    ((start version).filter path (first ++ second)).2 =
      (((start version).filter path second).2.map (text ++ ·)).mapError
        (Located.relocate (·.below (lines first).length)) := by
  rcases exists_filterLines_of_filter_eq_ok filtered with ⟨kept, filteredLines, rfl⟩
  unfold filter
  simp only [lines_append ends, filterLines_append filteredLines, filterLines_below]
  rcases filterLines path 1 (start version) (lines second) with ⟨final, error | others⟩
  · rfl
  · simp only [Except.mapError, Except.map]
    split
    · simp [Located.relocate, Located.reportedAt, Location.below, Nat.add_comm]
    · simp

end Evt.Conditional

/-! ## The scanner -/

namespace Evt

/-- The result some lines further down. -/
def Scanned.below (count : Nat) : Scanned → Scanned
  | .chunk delivered => .chunk ⟨delivered.text, delivered.line + count⟩
  | .error cause line => .error cause (line + count)
  | .finished => .finished

namespace Scanner

/-- The place some lines further down. -/
def below (scanner : Scanner) (count : Nat) : Scanner :=
  ⟨scanner.rest, scanner.line + count⟩

namespace Partial

/-- What has been read of a chunk, if there are blanks before it and it is some
lines further down. -/
def behind (read : Partial) (blanks : List Char) (count : Nat) : Partial where
  mode := read.mode
  kept := read.kept ++ blanks
  start := read.start.map (· + count)
  line := read.line + count

variable {blanks : List Char} (blank : blanks.all isSpace = true) (read : Partial) (count : Nat)

include blank in
theorem escaped_behind : (read.behind blanks count).escaped = read.escaped := by
  unfold escaped behind
  cases isKept : read.kept with
  | cons c kept => rfl
  | nil =>
      cases blanks with
      | nil => rfl
      | cons c blanks =>
          have visible : c ≠ '\\' := by
            rintro rfl
            exact absurd (List.all_eq_true.mp blank '\\' List.mem_cons_self) (by decide)
          simp [visible]

include blank in
theorem text_behind : (read.behind blanks count).text = read.text := by
  unfold text behind trim trimStart
  rw [List.reverse_append, List.dropWhile_append_of_pos]
  intro c member
  exact List.all_eq_true.mp blank c (List.mem_reverse.mp member)

theorem keep_behind (mode : Mode) (c : Char) :
    (read.behind blanks count).keep mode c = (read.keep mode c).behind blanks count := by
  have line : (if c = '\n' then read.line + count + 1 else read.line + count) =
      (if c = '\n' then read.line + 1 else read.line) + count := by
    split <;> omega
  unfold keep behind
  rw [line]
  cases read.start with
  | none =>
      simp only [List.cons_append, Option.map_none, Option.getD_none]
      split <;> rfl
  | some first =>
      simp only [List.cons_append, Option.map_some, Option.getD_some]
      split <;> rfl

theorem start_behind :
    (read.behind blanks count).start.getD (read.behind blanks count).line =
      read.start.getD read.line + count := by
  unfold behind
  cases read.start <;> rfl

include blank in
theorem close_behind : (read.behind blanks count).close = read.close.below count := by
  unfold close
  simp only [text_behind blank, start_behind]
  split <;> rfl

include blank in
theorem finish_behind : (read.behind blanks count).finish = read.finish.below count := by
  unfold finish
  rw [text_behind blank]
  split <;> rfl

end Partial

section

variable {blanks : List Char}

/-- Blanks before a chunk change nothing, and lines are counted on. -/
theorem nextFrom_behind (blank : blanks.all isSpace = true) (read : Partial) (count : Nat)
    (text : List Char) :
    nextFrom (read.behind blanks count) text =
      ((nextFrom read text).1.below count, (nextFrom read text).2.below count) := by
  induction text generalizing read with
  | nil =>
      simp only [nextFrom, Partial.finish_behind blank]
      rfl
  | cons c rest ih =>
      have comment : nextFrom { read.behind blanks count with mode := .comment } rest =
          ((nextFrom { read with mode := .comment } rest).1.below count,
            (nextFrom { read with mode := .comment } rest).2.below count) :=
        ih { read with mode := .comment }
      have mode : (read.behind blanks count).mode = read.mode := rfl
      simp only [nextFrom, mode, Partial.escaped_behind blank, Partial.keep_behind,
        Partial.close_behind blank, ih, comment]
      cases read.mode with
      | plain =>
          simp only
          split
          · rfl
          · split
            · rfl
            · split
              · rfl
              · split <;> rfl
      | string =>
          simp only
          split <;> rfl
      | comment =>
          simp only
          split <;> rfl

theorem next_below (scanner : Scanner) (count : Nat) :
    (scanner.below count).next = (scanner.next.1.below count, scanner.next.2.below count) :=
  nextFrom_behind rfl (.empty scanner.line) count scanner.rest

theorem below_eq_finished_iff {scanned : Scanned} {count : Nat} :
    scanned.below count = .finished ↔ scanned = .finished := by
  cases scanned <;> simp [Scanned.below]

/-- From a place further down the scanner finds the same, further down. -/
theorem all_below (scanner : Scanner) (count : Nat) :
    (scanner.below count).all.map Prod.fst =
      (scanner.all.map Prod.fst).map (Scanned.below count) := by
  fun_induction all scanner with
  | case1 scanner finished =>
      rw [all, dif_pos (by rw [next_below, finished]; rfl)]
      rfl
  | case2 scanner goesOn _ ih =>
      rw [all, dif_neg (by rwa [next_below, below_eq_finished_iff])]
      simp only [next_below, List.map_cons, ih]

end

/-! ## Two texts -/

/-- What has been read of a chunk holds a visible character if it has a line or if
it is in a string. -/
def Partial.Sound (read : Partial) : Prop :=
  read.start.isSome = true ∨ read.mode = .string → ∃ c ∈ read.kept, isSpace c = false

namespace Partial.Sound

variable {read : Partial}

theorem empty (line : Nat) : Sound (.empty line) := by
  rintro (started | isString)
  · cases started
  · cases isString

/-- A character that is kept may be the first visible one.  A string starts with
a quote, which is visible. -/
theorem keep (sound : Sound read) {mode : Mode} {c : Char}
    (opens : mode = .string → read.mode = .string ∨ isSpace c = false) :
    Sound (read.keep mode c) := by
  have earlier : (read.start.isSome = true ∨ read.mode = .string) →
      ∃ d ∈ c :: read.kept, isSpace d = false := by
    intro known
    rcases sound known with ⟨d, member, visible⟩
    exact ⟨d, List.mem_cons_of_mem c member, visible⟩
  rintro (started | isString)
  · unfold Partial.keep at started
    simp only at started
    split at started
    · exact earlier (.inl started)
    · rename_i visible
      exact ⟨c, List.mem_cons_self, by simpa using visible⟩
  · rcases opens isString with wasString | visible
    · exact earlier (.inr wasString)
    · exact ⟨c, List.mem_cons_self, visible⟩

/-- A comment adds nothing. -/
theorem comment (sound : Sound read) : Sound { read with mode := .comment } := by
  rintro (started | isString)
  · exact sound (.inl started)
  · cases isString

end Partial.Sound

/-- What the scanner does with one character: it keeps the character, drops it as
a part of a comment, or ends the chunk. -/
theorem nextFrom_cons (read : Partial) (c : Char) :
    (∃ mode, mode ≠ .comment ∧ (mode = .string → read.mode = .string ∨ isSpace c = false) ∧
      ∀ rest, nextFrom read (c :: rest) = nextFrom (read.keep mode c) rest) ∨
    (c ≠ '\n' ∧
      ∀ rest, nextFrom read (c :: rest) = nextFrom { read with mode := .comment } rest) ∨
    ∀ rest, nextFrom read (c :: rest) = (read.close, ⟨rest, read.line⟩) := by
  rcases read with ⟨mode, kept, start, line⟩
  cases mode with
  | plain =>
      by_cases escaped : Partial.escaped ⟨.plain, kept, start, line⟩ = true
      · exact .inl ⟨.plain, by simp, by simp, fun rest => by simp [nextFrom, escaped]⟩
      by_cases isQuote : c = '"'
      · subst isQuote
        exact .inl ⟨.string, by simp, fun _ => .inr (by decide),
          fun rest => by simp [nextFrom, escaped]⟩
      by_cases isComment : c = '#'
      · subst isComment
        exact .inr (.inl ⟨by decide, fun rest => by simp [nextFrom, escaped]⟩)
      by_cases isEnd : c = ';'
      · subst isEnd
        exact .inr (.inr fun rest => by simp [nextFrom, escaped])
      · exact .inl ⟨.plain, by simp, by simp,
          fun rest => by simp [nextFrom, escaped, isQuote, isComment, isEnd]⟩
  | string =>
      by_cases closes : c = '"' ∧ ¬ Partial.escaped ⟨.string, kept, start, line⟩ = true
      · exact .inl ⟨.plain, by simp, by simp, fun rest => by simp only [nextFrom, if_pos closes]⟩
      · exact .inl ⟨.string, by simp, fun _ => .inl rfl,
          fun rest => by simp only [nextFrom, if_neg closes]⟩
  | comment =>
      by_cases isFeed : c = '\n'
      · exact .inl ⟨.plain, by simp, by simp, fun rest => by simp [nextFrom, isFeed]⟩
      · exact .inr (.inl ⟨isFeed, fun rest => by simp [nextFrom, isFeed]⟩)

theorem close_ne_finished (read : Partial) : read.close ≠ .finished := by
  unfold Partial.close
  simp only
  split <;> simp

/-- At the end of a text nothing but blanks is left of the last chunk. -/
theorem exists_blanks_of_nextFrom {read : Partial} {behind : Scanner} {first : List Char}
    (sound : read.Sound) (ends : EndsLine first) (noComment : first = [] → read.mode ≠ .comment)
    (finished : nextFrom read first = (.finished, behind)) :
    behind.rest = [] ∧ ∃ blanks, blanks.all isSpace = true ∧ ∀ second,
      nextFrom read (first ++ second) = nextFrom ⟨.plain, blanks, none, behind.line⟩ second := by
  induction first generalizing read with
  | nil =>
      have isFinish : read.finish = .finished := congrArg Prod.fst finished
      have isBehind : behind = ⟨[], read.line⟩ := (congrArg Prod.snd finished).symm
      have isNil : read.text = [] := by
        unfold Partial.finish at isFinish
        split at isFinish
        · rename_i isEmpty
          exact List.isEmpty_iff.mp isEmpty
        · cases isFinish
      have blank : read.kept.all isSpace = true := by
        have reversed := all_isSpace_of_trim_eq_nil isNil
        rwa [List.all_reverse] at reversed
      have invisible : ¬ ∃ c ∈ read.kept, isSpace c = false := by
        rintro ⟨c, member, visible⟩
        rw [List.all_eq_true.mp blank c member] at visible
        cases visible
      subst isBehind
      refine ⟨rfl, read.kept, blank, fun second => ?_⟩
      rcases read with ⟨mode, kept, start, line⟩
      have noStart : start = none := by
        cases start with
        | none => rfl
        | some first => exact absurd (sound (.inl rfl)) invisible
      have isPlain : mode = .plain := by
        cases mode with
        | plain => rfl
        | string => exact absurd (sound (.inr rfl)) invisible
        | comment => exact absurd rfl (noComment rfl)
      rw [noStart, isPlain, List.nil_append]
  | cons c rest ih =>
      rcases nextFrom_cons read c with ⟨mode, isCode, opens, step⟩ | ⟨noFeed, step⟩ | step
      · rw [step] at finished
        rcases ih (sound.keep opens) ends.tail (fun _ => isCode) finished with
          ⟨isEnd, blanks, blank, goesOn⟩
        exact ⟨isEnd, blanks, blank, fun second => by rw [List.cons_append, step, goesOn]⟩
      · rw [step] at finished
        rcases ends.exists_cons noFeed with ⟨d, others, rfl⟩
        rcases ih sound.comment ends.tail (fun isNil => by cases isNil) finished with
          ⟨isEnd, blanks, blank, goesOn⟩
        exact ⟨isEnd, blanks, blank, fun second => by rw [List.cons_append, step, goesOn]⟩
      · rw [step] at finished
        exact absurd (congrArg Prod.fst finished) (close_ne_finished read)

/-- A chunk is found in the same way if more text follows. -/
theorem nextFrom_append_of_chunk {read : Partial} {chunk : Chunk} {behind : Scanner}
    {first : List Char} (found : nextFrom read first = (.chunk chunk, behind))
    (second : List Char) :
    nextFrom read (first ++ second) = (.chunk chunk, ⟨behind.rest ++ second, behind.line⟩) := by
  induction first generalizing read with
  | nil =>
      have isFinish : read.finish = .chunk chunk := congrArg Prod.fst found
      unfold Partial.finish at isFinish
      split at isFinish <;> cases isFinish
  | cons c rest ih =>
      rw [List.cons_append]
      rcases nextFrom_cons read c with ⟨mode, _, _, step⟩ | ⟨_, step⟩ | step
      · rw [step] at found ⊢
        exact ih found
      · rw [step] at found ⊢
        exact ih found
      · rw [step] at found ⊢
        rcases Prod.mk.inj found with ⟨isChunk, rfl⟩
        rw [isChunk]

/-- What the scanner finds depends on its next chunk only. -/
theorem all_eq_of_next_eq {first second : Scanner} (same : first.next = second.next) :
    first.all = second.all := by
  rcases read : second.next with ⟨scanned, behind⟩
  by_cases finished : scanned = .finished
  · subst finished
    rw [all_of_finished (same.trans read), all_of_finished read]
  · rw [all_of_next (same.trans read) finished, all_of_next read finished]

/-- The results for whole lines without errors are chunks, and behind them the
scanner finds what it would find in the rest alone. -/
theorem exists_chunks_of_all {text : List Char} {scanner : Scanner} (isAt : At text scanner)
    (ends : EndsLine text)
    (noError : ∀ cause line, .error cause line ∉ scanner.all.map Prod.fst) :
    ∃ chunks, scanner.all.map Prod.fst = chunks ++ [.finished] ∧ ∀ second,
      (Scanner.mk (scanner.rest ++ second) scanner.line).all.map Prod.fst =
        chunks ++ (results second).map (Scanned.below (text.count '\n')) := by
  fun_induction all scanner with
  | case1 scanner finished =>
      rcases isAt with ⟨before, split, isLine⟩
      have isNext : scanner.next = (.finished, scanner.next.2) := by rw [← finished]
      have endsRest : EndsLine scanner.rest := (split ▸ ends).of_append
      rcases exists_blanks_of_nextFrom (.empty scanner.line) endsRest (by simp [Partial.empty])
        isNext with ⟨isEnd, blanks, blank, goesOn⟩
      rcases (nextFrom_reports (.empty isLine) split).2 with ⟨whole, splitEnd, isLast⟩
      have isText : text = whole := by
        rw [splitEnd]
        exact (congrArg (whole ++ ·) isEnd).trans (List.append_nil whole)
      have lastLine : scanner.next.2.line = text.count '\n' + 1 := by rw [isText]; exact isLast
      refine ⟨[], rfl, fun second => ?_⟩
      have sameNext : (Scanner.mk (scanner.rest ++ second) scanner.line).next =
          ((start second).below (text.count '\n')).next := by
        calc
          _ = nextFrom ((Partial.empty 1).behind blanks (text.count '\n')) second := by
            rw [next, goesOn, lastLine, Nat.add_comm]
            rfl
          _ = _ := by
            rw [nextFrom_behind blank, next_below]
            rfl
      rw [all_eq_of_next_eq sameNext, all_below]
      rfl
  | case2 scanner goesOn _ ih =>
      rcases isAt with ⟨before, split, isLine⟩
      have isAtBehind := (nextFrom_reports (.empty isLine) split).2
      cases found : scanner.next.1 with
      | finished => exact absurd found goesOn
      | error cause line =>
          exact absurd (by rw [found]; exact List.mem_cons_self) (noError cause line)
      | chunk delivered =>
          have noErrorBehind : ∀ cause line,
              .error cause line ∉ scanner.next.2.all.map Prod.fst := fun cause line member =>
            noError cause line (List.mem_cons_of_mem _ member)
          rcases ih isAtBehind noErrorBehind with ⟨chunks, areChunks, goesOnBehind⟩
          have isNext : nextFrom (.empty scanner.line) scanner.rest =
              (.chunk delivered, scanner.next.2) := by
            rw [← found]
            rfl
          refine ⟨.chunk delivered :: chunks, by rw [List.map_cons, areChunks]; rfl,
            fun second => ?_⟩
          have isNextAppend : (Scanner.mk (scanner.rest ++ second) scanner.line).next =
              (.chunk delivered, ⟨scanner.next.2.rest ++ second, scanner.next.2.line⟩) :=
            nextFrom_append_of_chunk isNext second
          rw [all_of_next isNextAppend (by simp), List.map_cons, goesOnBehind second]
          rfl

end Scanner

/-- The results for whole lines without errors are chunks, and those for what
follows are counted on. -/
theorem exists_chunks_of_results {first : List Char} (ends : EndsLine first)
    (noError : ∀ cause line, .error cause line ∉ results first) :
    ∃ chunks, results first = chunks ++ [.finished] ∧ ∀ second,
      results (first ++ second) =
        chunks ++ (results second).map (Scanned.below (first.count '\n')) :=
  @Scanner.exists_chunks_of_all first (Scanner.start first) ⟨[], rfl, rfl⟩ ends noError

end Evt

/-! ## Loading -/

namespace Store

variable {path : Path} {version : Nat}

theorem addAll_append (store : Store) (first second : List Scanned) :
    addAll path version store (first ++ second) =
      (addAll path version store first).bind fun next => addAll path version next second := by
  induction first generalizing store with
  | nil => rfl
  | cons scanned others ih =>
      rw [List.cons_append, addAll, addAll]
      cases addScanned path version store scanned with
      | error error => rfl
      | ok next => exact ih next

/-- If all results are added, none of them is an error. -/
theorem error_not_mem_of_addAll_eq_ok {store final : Store} {scanned : List Scanned}
    (added : addAll path version store scanned = .ok final) (cause : EvtError) (line : Nat) :
    .error cause line ∉ scanned := by
  intro member
  rcases List.append_of_mem member with ⟨before, behind, rfl⟩
  rw [addAll_append] at added
  cases isAdded : addAll path version store before with
  | error error =>
      rw [isAdded] at added
      cases added
  | ok next =>
      rw [isAdded] at added
      cases added

/-- Results further down add what they would add alone, further down. -/
theorem addScanned_below (store added : Store) (count : Nat) (scanned : Scanned) :
    addScanned path version (store.extend (added.relocate (·.below count))) (scanned.below count) =
      ((addScanned path version added scanned).map fun next =>
        store.extend (next.relocate (·.below count))).mapError
          (Located.relocate (·.below count)) := by
  cases scanned with
  | finished => rfl
  | error cause line => rfl
  | chunk delivered =>
      have read := Statement.parse_relocate (·.below count) ⟨path, delivered.line⟩
        delivered.text version
      simp only [Location.below] at read
      simp only [addScanned, Scanned.below, read]
      cases Statement.parse delivered.text ⟨path, delivered.line⟩ version with
      | error cause => rfl
      | ok statement =>
          simp only [Except.map, Except.mapError]
          rw [← addStatement_relocate]
          rfl

theorem addAll_below (store added : Store) (count : Nat) (scanned : List Scanned) :
    addAll path version (store.extend (added.relocate (·.below count)))
        (scanned.map (Scanned.below count)) =
      ((addAll path version added scanned).map fun next =>
        store.extend (next.relocate (·.below count))).mapError
          (Located.relocate (·.below count)) := by
  induction scanned generalizing added with
  | nil => rfl
  | cons first others ih =>
      rw [List.map_cons, addAll, addAll, addScanned_below]
      cases addScanned path version added first with
      | error error => rfl
      | ok next => exact ih next

/-- Behind whole lines that are loaded, a source is loaded as if it stood alone:
its declarations are added, with their lines counted on. -/
theorem load_append_eq {first : List Char} {store : Store} (ends : EndsLine first)
    (loaded : load path first version = .ok store) (second : List Char) :
    load path (first ++ second) version =
      ((load path second version).map fun added =>
        store.extend (added.relocate (·.below (lines first).length))).mapError
          (Located.relocate (·.below (lines first).length)) := by
  unfold load at loaded
  split at loaded
  · cases loaded
  · rename_i text filtered
    have noError := error_not_mem_of_addAll_eq_ok loaded
    rcases exists_chunks_of_results (Conditional.endsLine_of_filter_eq_ok filtered) noError with
      ⟨chunks, areResults, goesOn⟩
    have addedChunks : addAll path version empty chunks = .ok store := by
      change addAll path version empty (results text) = .ok store at loaded
      rw [areResults, addAll_append] at loaded
      cases added : addAll path version empty chunks with
      | error error =>
          rw [added] at loaded
          cases loaded
      | ok next =>
          rw [added] at loaded
          cases loaded
          rfl
    rw [load, load, Conditional.filter_append ends filtered]
    cases ((Conditional.start version).filter path second).2 with
    | error error => rfl
    | ok rest =>
        have isResult := goesOn rest
        rw [count_of_filter_eq_ok filtered] at isResult
        calc
          addAll path version empty (results (text ++ rest)) =
              addAll path version store
                ((results rest).map (Scanned.below (lines first).length)) := by
            rw [isResult, addAll_append, addedChunks]
            rfl
          _ = _ := by
            have isStore := extend_relocate_empty (·.below (lines first).length) store
            nth_rewrite 1 [← isStore]
            exact addAll_below store empty _ (results rest)

/-- A source of whole lines and what follows it.  If the first part is loaded, the
whole is loaded exactly if the second part is; its declarations come behind those
of the first part, with the number of lines of the first part added to their
lines.  An error of the second part is an error of the whole in the same way. -/
theorem load_append (path : Path) (version : Nat) (first second : List Char) (store : Store)
    (ends : EndsLine first) (loaded : load path first version = .ok store) :
    (∀ added, load path second version = .ok added →
      load path (first ++ second) version =
        .ok (store.extend (added.relocate (·.below (lines first).length)))) ∧
    ∀ error, load path second version = .error error →
      ∃ line, error.location = some ⟨path, line⟩ ∧
        load path (first ++ second) version =
          .error (.reportedAt error.cause ⟨path, line + (lines first).length⟩) := by
  have whole := load_append_eq ends loaded second
  constructor
  · intro added loadedSecond
    rw [whole, loadedSecond]
    rfl
  · intro error failed
    rcases exists_line_of_load_eq_error failed with ⟨line, isLocation, _⟩
    refine ⟨line, isLocation, ?_⟩
    rw [whole, failed]
    simp only [Except.map, Except.mapError, Located.relocate, isLocation]
    rfl

/-- Behind a group and a comment with a quote in it, an export is on the line where
it stands, and an empty statement is reported there. -/
theorem load_append_export :
    let path : Path := ⟨"x.evt"⟩
    let first := "@if HOST_VERSION\nexport A;\n@endif\n # \"\n".toList
    load path first 6 = .ok { empty with exports := [⟨⟨"A"⟩, ⟨path, 2⟩⟩] } ∧
      load path (first ++ "\nexport B;".toList) 6 =
        .ok { empty with exports := [⟨⟨"A"⟩, ⟨path, 2⟩⟩, ⟨⟨"B"⟩, ⟨path, 6⟩⟩] } ∧
      load path (first ++ ";".toList) 6 = .error (.reportedAt .emptyStatement ⟨path, 5⟩) := by
  have loaded : load ⟨"x.evt"⟩ "@if HOST_VERSION\nexport A;\n@endif\n # \"\n".toList 6 =
      .ok { empty with exports := [⟨⟨"A"⟩, ⟨⟨"x.evt"⟩, 2⟩⟩] } := by with_unfolding_all rfl
  have loadedExport : load ⟨"x.evt"⟩ "\nexport B;".toList 6 =
      .ok { empty with exports := [⟨⟨"B"⟩, ⟨⟨"x.evt"⟩, 2⟩⟩] } := by with_unfolding_all rfl
  have failed : load ⟨"x.evt"⟩ ";".toList 6 =
      .error (.reportedAt .emptyStatement ⟨⟨"x.evt"⟩, 1⟩) := by with_unfolding_all rfl
  have count : (lines "@if HOST_VERSION\nexport A;\n@endif\n # \"\n".toList).length = 4 := by
    decide
  intro path first
  have ends : EndsLine first := .inr (by decide)
  have added := (load_append path 6 first _ _ ends loaded).1 _ loadedExport
  rcases (load_append path 6 first _ _ ends loaded).2 _ failed with ⟨line, isLocation, isError⟩
  cases isLocation
  rw [count] at added isError
  exact ⟨loaded, added, isError⟩

end Store

end AnalyzerGlue
