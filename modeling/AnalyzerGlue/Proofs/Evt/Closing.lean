import AnalyzerGlue.Proofs.Evt.Covering
import AnalyzerGlue.Proofs.Evt.Scanning

/-!
# Where chunks end

A chunk ends with the first semicolon that neither a string nor a backslash takes the
meaning from.  So it has one at its end, and every other one is behind a quote or a
backslash.
-/

namespace AnalyzerGlue.Evt

open AnalyzerGlue.Text

/-- A text, the last character first, in which every semicolon is behind a quote or a
backslash. -/
def Guarded (kept : List Char) : Prop :=
  ∀ behind before, kept = behind ++ ';' :: before → ¬ ∀ c ∈ before, IsPlain c

namespace Guarded

variable {kept : List Char} {c : Char}

theorem nil : Guarded [] := by
  intro behind before isKept
  simp at isKept

theorem cons (guarded : Guarded kept) (isGuarded : c = ';' → ¬ ∀ d ∈ kept, IsPlain d) :
    Guarded (c :: kept) := by
  intro behind before isKept
  cases behind with
  | nil =>
      cases isKept
      exact isGuarded rfl
  | cons d behind =>
      cases isKept
      exact guarded behind before rfl

end Guarded

/-- What is left of a text is a part of it between white space. -/
theorem exists_append_trim_append (text : List Char) :
    ∃ blanks others, text = blanks ++ trim text ++ others ∧ blanks.all isSpace = true := by
  let started := text.dropWhile isSpace
  have isStart : text = text.takeWhile isSpace ++ started :=
    List.takeWhile_append_dropWhile.symm
  have isEnd : started.reverse =
      started.reverse.takeWhile isSpace ++ started.reverse.dropWhile isSpace :=
    List.takeWhile_append_dropWhile.symm
  refine ⟨text.takeWhile isSpace, (started.reverse.takeWhile isSpace).reverse, ?_,
    List.all_takeWhile⟩
  rw [List.append_assoc, trim, trimEnd, trimStart, ← List.reverse_append, ← isEnd,
    List.reverse_reverse]
  exact isStart

namespace Scanner

/-- What has been read of a chunk is guarded, and a string that is open has been opened
by a quote. -/
structure Partial.IsGuarded (read : Partial) : Prop where
  kept : Guarded read.kept
  quote : read.mode = .string → '"' ∈ read.kept

namespace Partial.IsGuarded

variable {read : Partial} {c : Char} {mode : Mode}

theorem empty (line : Nat) : (Partial.empty line).IsGuarded :=
  ⟨.nil, fun isString => by cases isString⟩

theorem keep (guarded : read.IsGuarded) (isGuarded : c = ';' → ¬ ∀ d ∈ read.kept, IsPlain d)
    (opens : mode = .string → c = '"' ∨ read.mode = .string) :
    (read.keep mode c).IsGuarded := by
  refine ⟨guarded.kept.cons isGuarded, fun isString => ?_⟩
  rcases opens isString with rfl | wasString
  · exact List.mem_cons_self
  · exact .tail _ (guarded.quote wasString)

theorem not_plain_of_escaped (escaped : read.escaped = true) :
    ¬ ∀ d ∈ read.kept, IsPlain d := by
  intro plain
  have isFirst : read.kept.head? = some '\\' := by simpa [Partial.escaped] using escaped
  exact (plain '\\' (List.mem_of_head? isFirst)).2.2 rfl

theorem not_plain_of_string (guarded : read.IsGuarded) (isString : read.mode = .string) :
    ¬ ∀ d ∈ read.kept, IsPlain d :=
  fun plain => (plain '"' (guarded.quote isString)).2.1 rfl

end Partial.IsGuarded

/-- A chunk with its semicolon at the end; every other semicolon in it is behind a quote
or a backslash. -/
structure IsClosed (text : List Char) : Prop where
  last : text.getLast? = some ';'
  first : ∀ c ∈ text.head?, isSpace c = false
  guarded : ∀ before behind, text = before ++ ';' :: behind → (∀ c ∈ before, IsPlain c) →
    behind = []

theorem isClosed_of_close {read : Partial} {chunk : Chunk} (guarded : read.IsGuarded)
    (closed : read.close = .chunk chunk) : IsClosed chunk.text := by
  unfold Partial.close at closed
  simp only at closed
  split at closed
  · cases closed
  rename_i notNil
  cases closed
  rcases exists_append_trim_append read.kept.reverse with ⟨blanks, others, isText, blank⟩
  have isKept : read.kept = others.reverse ++ read.text.reverse ++ blanks.reverse := by
    rw [← List.reverse_reverse read.kept, isText]
    simp [Partial.text]
  refine ⟨List.getLast?_concat, ?_, ?_⟩
  · intro c isFirst
    have visible : read.text ≠ [] := by simpa using notNil
    rw [List.head?_append, Option.or_of_isSome (by simpa using visible)] at isFirst
    exact isSpace_head?_trim read.kept.reverse c isFirst
  · intro before behind isChunk plain
    rcases List.eq_nil_or_concat behind with isNil | ⟨inner, last, rfl⟩
    · exact isNil
    · exfalso
      rw [List.concat_eq_append, ← List.cons_append, ← List.append_assoc] at isChunk
      have inside : read.text = before ++ ';' :: inner := (List.append_inj' isChunk rfl).1
      refine guarded.kept (others.reverse ++ inner.reverse) (before.reverse ++ blanks.reverse) ?_ ?_
      · rw [isKept, inside]
        simp
      · intro c member
        rcases List.mem_append.mp member with isBefore | isBlank
        · exact plain c (List.mem_reverse.mp isBefore)
        · have space := List.all_eq_true.mp blank c (List.mem_reverse.mp isBlank)
          refine ⟨?_, ?_, ?_⟩ <;>
          · rintro rfl
            exact absurd space (by decide)

/-- One step keeps what has been read guarded, so that every chunk is closed. -/
theorem isClosed_of_nextFrom {read : Partial} {rest : List Char} {chunk : Chunk}
    (guarded : read.IsGuarded) (delivered : (nextFrom read rest).1 = .chunk chunk) :
    IsClosed chunk.text := by
  induction rest generalizing read with
  | nil =>
      simp only [nextFrom, Partial.finish] at delivered
      split at delivered <;> cases delivered
  | cons c rest ih =>
      unfold nextFrom at delivered
      split at delivered
      · split at delivered
        · rename_i escaped
          exact ih (guarded.keep (fun _ => Partial.IsGuarded.not_plain_of_escaped escaped)
            (by simp)) delivered
        · split at delivered
          · rename_i isQuote
            subst isQuote
            exact ih (guarded.keep (by simp) (by simp)) delivered
          · split at delivered
            · exact @ih { read with mode := .comment } ⟨guarded.kept, by simp⟩ delivered
            · split at delivered
              · exact isClosed_of_close guarded delivered
              · rename_i inside
                exact ih (guarded.keep (fun isEnd => absurd isEnd inside) (by simp)) delivered
      · rename_i isString
        have held := guarded.not_plain_of_string isString
        split at delivered
        · exact ih (guarded.keep (fun _ => held) (by simp)) delivered
        · exact ih (guarded.keep (fun _ => held) fun _ => .inr isString) delivered
      · split at delivered
        · rename_i isFeed
          subst isFeed
          exact ih (guarded.keep (by simp) (by simp)) delivered
        · exact ih guarded delivered

/-- Every chunk of a source is closed. -/
theorem isClosed_of_mem_all {scanner : Scanner} {chunk : Chunk} {line : Nat}
    (delivered : (.chunk chunk, line) ∈ scanner.all) : IsClosed chunk.text := by
  fun_induction all scanner with
  | case1 => simp at delivered
  | case2 scanner goesOn _ ih =>
      rcases List.mem_cons.mp delivered with isNext | isLater
      · exact isClosed_of_nextFrom (.empty scanner.line) (congrArg Prod.fst isNext).symm
      · exact ih isLater

end Scanner

end AnalyzerGlue.Evt
