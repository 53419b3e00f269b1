import AnalyzerGlue.Proofs.Evt.Covering
import AnalyzerGlue.Proofs.Evt.Taking

/-!
# The text of imports

`ImportText` says what an import looks like without its semicolon.  What an import takes
off a text looks like this, and a text that looks like this before a semicolon is taken
whole.
-/

namespace AnalyzerGlue.Evt.Statement

open AnalyzerGlue.Text Reader

/-- An import without its semicolon: the keyword, a module, and perhaps a scope, with
white space between them. -/
inductive ImportText : List Char → Prop where
  | bare {gap name : List Char} :
      gap.all isAsciiSpace = true → name ≠ [] → cutId none name = (name, []) →
        ImportText ("import".toList ++ (gap ++ name))
  | withScope {gap name before behind scope : List Char} :
      gap.all isAsciiSpace = true → name ≠ [] → cutId none name = (name, []) →
        before.all isAsciiSpace = true → before ≠ [] → behind.all isAsciiSpace = true →
        IsWord (fun c => c == ';') scope →
        ImportText ("import".toList ++ (gap ++ name ++
          (before ++ "from".toList ++ (behind ++ scope))))

/-- An import with its semicolon, and nothing else. -/
def IsWholeImport (text : List Char) : Prop :=
  ∃ body blanks, ImportText body ∧ blanks.all isAsciiSpace = true ∧
    text = body ++ (blanks ++ [';'])

/-- Behind an id there is no letter and no digit. -/
theorem isAlphanum_head?_of_cutId {before : Option Char} {text taken rest : List Char}
    (cut : cutId before text = (taken, rest)) : ∀ c ∈ rest.head?, c.isAlphanum = false := by
  induction text generalizing before taken with
  | nil =>
      cases cut
      simp
  | cons c text ih =>
      rcases cutId_cons_cases cut with ⟨_, _, _, cutRest⟩ | ⟨_, rfl, ends⟩
      · exact ih cutRest
      · rintro d ⟨rfl⟩
        simp only [isIdChar, Bool.or_eq_false_iff] at ends
        exact ends.1.1.1.1

section

variable {known : List Char → Prop}

/-- What an id takes off the text behind a token. -/
theorem returns_written_ident {token : String} (noColon : token.toList.getLast? ≠ some ':') :
    Returns (fun cursor => Behind token cursor ∧ known cursor.rest) ident fun _ moved =>
      ∃ gap name, gap.all isAsciiSpace = true ∧ name ≠ [] ∧ cutId none name = (name, []) ∧
        known (gap ++ name ++ moved.rest) ∧ ∀ c ∈ moved.rest.head?, c.isAlphanum = false := by
  have spanned : Returns (fun cursor => Behind token cursor ∧ known cursor.rest)
      (span fun cursor => cutId cursor.seen.head? cursor.rest) fun taken moved =>
        ∃ gap, gap.all isAsciiSpace = true ∧ cutId none taken = (taken, []) ∧
          known (gap ++ taken ++ moved.rest) ∧
          ∀ c ∈ moved.rest.head?, c.isAlphanum = false := by
    rintro cursor _ _ ⟨isBehind, isKnown⟩ ⟨⟩
    let there := cursor.skipSpaces
    have isWhole : cursor.rest = cursor.rest.takeWhile isAsciiSpace ++ there.rest :=
      List.takeWhile_append_dropWhile.symm
    have free : there.seen.head? ≠ some ':' := noColon_skipSpaces (by rwa [isBehind])
    rcases @cutId_of_cutId there.seen.head? there.rest _ _ rfl with ⟨isRest, whole⟩
    refine ⟨cursor.rest.takeWhile isAsciiSpace, List.all_takeWhile, ?_, ?_, ?_⟩
    · exact (cutId_congr (by rw [beq_eq_false_iff_ne.mpr free]; rfl) _).trans whole
    · rw [isWhole, isRest, ← List.append_assoc] at isKnown
      exact isKnown
    · exact isAlphanum_head?_of_cutId rfl
  refine .bind spanned fun taken => ?_
  cases taken with
  | nil => exact .throw _
  | cons c others =>
      refine .pure ?_
      rintro cursor ⟨gap, blank, whole, isKnown, ends⟩
      exact ⟨gap, c :: others, blank, by simp, whole, isKnown, ends⟩

theorem returns_written_wordUpTo {ends : Char → Bool} :
    Returns (fun cursor => known cursor.rest) (wordUpTo ends) fun _ moved =>
      ∃ gap word, gap.all isAsciiSpace = true ∧ IsWord ends word ∧
        known (gap ++ word ++ moved.rest) := by
  have spanned : Returns (fun cursor => known cursor.rest) (span fun cursor =>
      (cursor.rest.takeWhile fun c => !isAsciiSpace c && !ends c,
        cursor.rest.dropWhile fun c => !isAsciiSpace c && !ends c)) fun taken moved =>
        ∃ gap, gap.all isAsciiSpace = true ∧ (∀ c ∈ taken, (!isAsciiSpace c && !ends c) = true) ∧
          known (gap ++ taken ++ moved.rest) := by
    rintro cursor _ _ isKnown ⟨⟩
    let there := cursor.skipSpaces
    have isWhole : cursor.rest = cursor.rest.takeWhile isAsciiSpace ++ there.rest :=
      List.takeWhile_append_dropWhile.symm
    refine ⟨cursor.rest.takeWhile isAsciiSpace, List.all_takeWhile,
      List.all_eq_true.mp List.all_takeWhile, ?_⟩
    rw [isWhole, ← @List.takeWhile_append_dropWhile _ (fun c => !isAsciiSpace c && !ends c)
      there.rest, ← List.append_assoc] at isKnown
    exact isKnown
  refine .bind spanned fun taken => ?_
  cases taken with
  | nil => exact .throw _
  | cons c others =>
      refine .pure ?_
      rintro cursor ⟨gap, blank, belong, isKnown⟩
      exact ⟨gap, c :: others, blank, ⟨by simp, belong⟩, isKnown⟩

theorem returns_written_accept {token : String} :
    Returns (fun cursor => known cursor.rest) (accept token) fun found moved =>
      if found then ∃ blanks, blanks.all isAsciiSpace = true ∧
        known (blanks ++ (token.toList ++ moved.rest)) else known moved.rest := by
  intro cursor found moved isKnown read
  rcases accept_eq_ok_cases read with ⟨rfl, follows⟩ | ⟨rfl, _, rfl⟩
  · rcases exists_of_after?_eq_some follows with ⟨blanks, blank, isRest⟩
    rw [isRest] at isKnown
    exact ⟨blanks, blank, isKnown⟩
  · exact isKnown

end

/-- The text goes on with the rest behind the keyword and the module of an import. -/
def BehindModule (text rest : List Char) : Prop :=
  ∃ gap name, gap.all isAsciiSpace = true ∧ name ≠ [] ∧ cutId none name = (name, []) ∧
    text = "import".toList ++ (gap ++ name ++ rest) ∧ ∀ c ∈ rest.head?, c.isAlphanum = false

/-- The scope of an import is set apart from the module, or it would belong to it. -/
theorem BehindModule.scoped {text before behind scope rest : List Char}
    (known : BehindModule text (before ++ ("from".toList ++ (behind ++ scope ++ rest))))
    (blankBefore : before.all isAsciiSpace = true) (blankBehind : behind.all isAsciiSpace = true)
    (isWord : IsWord (fun c => c == ';') scope) :
    ∃ body, ImportText body ∧ text = body ++ rest := by
  rcases known with ⟨gap, name, blank, notNil, whole, isText, ends⟩
  have apart : before ≠ [] := by
    rintro rfl
    exact absurd (ends 'f' rfl) (by decide)
  refine ⟨_, .withScope blank notNil whole blankBefore apart blankBehind isWord, ?_⟩
  rw [isText]
  simp only [List.append_assoc]

/-- What an import takes off a text that starts with a visible character. -/
theorem returns_importText {text : List Char} (visible : ∀ c ∈ text.head?, isSpace c = false) :
    Returns (fun cursor => text = cursor.rest) importDecl fun _ moved =>
      ∃ body, ImportText body ∧ text = body ++ moved.rest := by
  have keywordRead : Returns (fun cursor => text = cursor.rest) (expect "import") fun _ moved =>
      Behind "import" moved ∧ text = "import".toList ++ moved.rest := by
    rintro cursor _ moved rfl read
    rcases exists_of_expect_eq_ok read with ⟨blanks, blank, isRest⟩
    have isBehind := @returns_expect Anywhere "import" True (by simp) (fun _ _ _ => trivial)
      cursor _ _ trivial read
    refine ⟨isBehind.2, ?_⟩
    cases blanks with
    | nil => exact isRest
    | cons c blanks =>
        have space := isSpace_of_isAsciiSpace (List.all_eq_true.mp blank c List.mem_cons_self)
        rw [visible c (by rw [isRest]; rfl)] at space
        cases space
  refine .bind keywordRead fun _ => .bind (@returns_written_ident
    (fun rest => text = "import".toList ++ rest) "import" (by decide)) fun name => ?_
  refine .bind (@returns_written_accept (BehindModule text) "from") fun found => ?_
  cases found with
  | false =>
      refine .pure ?_
      rintro cursor ⟨gap, name, blank, notNil, whole, isText, _⟩
      exact ⟨_, .bare blank notNil whole, by rw [isText]; simp only [List.append_assoc]⟩
  | true =>
      refine .bind (@returns_written_wordUpTo (fun rest => ∃ before : List Char,
        before.all isAsciiSpace = true ∧ BehindModule text (before ++ ("from".toList ++ rest))) _)
        fun scope => .pure ?_
      rintro cursor ⟨behind, word, blankBehind, isWord, before, blankBefore, known⟩
      exact known.scoped blankBefore blankBehind isWord

/-- A part behind white space is taken if it is cut off the text there. -/
theorem span_eq_ok {cut : Cursor → List Char × List Char} {seen gap taken rest : List Char}
    (blank : gap.all isAsciiSpace = true)
    (visible : ∀ c ∈ (taken ++ rest).head?, isAsciiSpace c = false)
    (isCut : cut (Cursor.skipSpaces ⟨seen, gap ++ taken ++ rest⟩) = (taken, rest)) :
    ∃ behind, span cut ⟨seen, gap ++ taken ++ rest⟩ = .ok taken ⟨behind, rest⟩ := by
  have skipped : Cursor.skipSpaces ⟨seen, gap ++ taken ++ rest⟩ =
      ⟨gap.reverse ++ seen, taken ++ rest⟩ := by
    rw [List.append_assoc]
    exact skipSpaces_of_blanks blank visible seen
  refine ⟨taken.reverse ++ (gap.reverse ++ seen), ?_⟩
  have isSpan : span cut ⟨seen, gap ++ taken ++ rest⟩ =
      .ok (cut (Cursor.skipSpaces ⟨seen, gap ++ taken ++ rest⟩)).1
        ((Cursor.skipSpaces ⟨seen, gap ++ taken ++ rest⟩).past
          (cut (Cursor.skipSpaces ⟨seen, gap ++ taken ++ rest⟩)).1
          (cut (Cursor.skipSpaces ⟨seen, gap ++ taken ++ rest⟩)).2) := rfl
  rw [isSpan, isCut, skipped]
  rfl

theorem ident_eq_ok {seen gap name rest : List Char} (noColon : seen.head? ≠ some ':')
    (blank : gap.all isAsciiSpace = true) (notNil : name ≠ [])
    (whole : cutId none name = (name, [])) (ends : EndsId rest) :
    ∃ behind, ident ⟨seen, gap ++ name ++ rest⟩ = .ok (.ofWritten name) ⟨behind, rest⟩ := by
  rcases List.exists_cons_of_ne_nil notNil with ⟨c, others, rfl⟩
  have visible : isAsciiSpace c = false :=
    isAsciiSpace_of_isIdPart (isIdPart_of_cutId whole c List.mem_cons_self)
  have isVisible : ∀ d ∈ (c :: others ++ rest).head?, isAsciiSpace d = false := by
    rintro d ⟨rfl⟩
    exact visible
  have free := @noColon_skipSpaces ⟨seen, gap ++ (c :: others) ++ rest⟩ noColon
  have skipped := @skipSpaces_of_blanks gap (c :: others ++ rest) blank isVisible seen
  rw [← List.append_assoc] at skipped
  have isCut : cutId (Cursor.skipSpaces ⟨seen, gap ++ (c :: others) ++ rest⟩).seen.head?
      (Cursor.skipSpaces ⟨seen, gap ++ (c :: others) ++ rest⟩).rest = (c :: others, rest) := by
    rw [@cutId_congr _ none (by rw [beq_eq_false_iff_ne.mpr free]; rfl), skipped]
    exact cutId_append whole ends
  rcases @span_eq_ok (fun cursor => cutId cursor.seen.head? cursor.rest) seen gap (c :: others) rest
    blank isVisible isCut with ⟨behind, spanned⟩
  exact ⟨behind, by rw [ident, bind_of_eq_ok spanned]; rfl⟩

theorem wordUpTo_eq_ok {ends : Char → Bool} {seen gap word rest : List Char}
    (blank : gap.all isAsciiSpace = true) (isWord : IsWord ends word)
    (stops : ∀ c ∈ rest.head?, (!isAsciiSpace c && !ends c) = false) :
    ∃ behind, wordUpTo ends ⟨seen, gap ++ word ++ rest⟩ =
      .ok (String.ofList word) ⟨behind, rest⟩ := by
  rcases Token.span_append (List.all_eq_true.mpr isWord.2) stops with ⟨taken, left⟩
  rcases List.exists_cons_of_ne_nil isWord.1 with ⟨c, others, rfl⟩
  have isVisible : ∀ d ∈ (c :: others ++ rest).head?, isAsciiSpace d = false := by
    rintro d ⟨rfl⟩
    have belongs := isWord.2 c List.mem_cons_self
    rw [Bool.and_eq_true] at belongs
    simpa using belongs.1
  have skipped := @skipSpaces_of_blanks gap (c :: others ++ rest) blank isVisible seen
  rw [← List.append_assoc] at skipped
  rcases @span_eq_ok (fun cursor => (cursor.rest.takeWhile fun c => !isAsciiSpace c && !ends c,
      cursor.rest.dropWhile fun c => !isAsciiSpace c && !ends c)) seen gap (c :: others) rest
    blank isVisible (by rw [skipped, taken, left]) with ⟨behind, spanned⟩
  exact ⟨behind, by rw [wordUpTo, bind_of_eq_ok spanned]; rfl⟩

theorem endsId_blanks_append {blanks rest : List Char} (blank : blanks.all isAsciiSpace = true)
    (ends : blanks ≠ [] ∨ EndsId rest) : EndsId (blanks ++ rest) := by
  cases blanks with
  | nil => exact ends.resolve_left fun notNil => notNil rfl
  | cons c blanks =>
      rintro d ⟨rfl⟩
      rw [Bool.eq_false_iff]
      intro isPart
      have space := List.all_eq_true.mp blank c List.mem_cons_self
      rw [isAsciiSpace_of_isIdPart isPart] at space
      cases space

/-- Before a semicolon no scope follows. -/
theorem lacks_from {blanks : List Char} (blank : blanks.all isAsciiSpace = true) :
    Lacks "from" (blanks ++ [';']) := by
  rw [Lacks, List.dropWhile_append_of_pos (List.all_eq_true.mp blank)]
  rfl

/-- An import is read up to its semicolon. -/
theorem importDecl_of_importText {body blanks : List Char} (isImport : ImportText body)
    (blank : blanks.all isAsciiSpace = true) :
    ∃ decl seen, importDecl (Cursor.start (body ++ (blanks ++ [';']))) =
      .ok decl ⟨seen, blanks ++ [';']⟩ := by
  have keywordRead : ∀ rest : List Char, expect "import" (Cursor.start ("import".toList ++ rest)) =
      .ok ⟨⟩ ⟨"import".toList.reverse ++ [], rest⟩ := fun rest => takes_expect_here rfl rfl []
  have endsHere : EndsId [';'] := by
    rintro c ⟨rfl⟩
    rfl
  cases isImport with
  | @bare gap name blankGap notNil whole =>
      rcases @ident_eq_ok ("import".toList.reverse ++ []) gap name (blanks ++ [';']) (by decide)
        blankGap notNil whole (endsId_blanks_append blank (.inr endsHere)) with ⟨seen, named⟩
      refine ⟨⟨.ofWritten name, none⟩, seen, ?_⟩
      rw [List.append_assoc, importDecl, bind_of_eq_ok (keywordRead _), bind_of_eq_ok named,
        bind_of_eq_ok (accept_of_after?_eq_none (after?_of_lacks (lacks_from blank) seen))]
      rfl
  | @withScope gap name before behind scope blankGap notNil whole blankBefore apart blankBehind
      isWord =>
      let tail := behind ++ scope ++ (blanks ++ [';'])
      rcases @ident_eq_ok ("import".toList.reverse ++ []) gap name
        (before ++ "from".toList ++ tail) (by decide) blankGap notNil whole
        (by rw [List.append_assoc]; exact endsId_blanks_append blankBefore (.inl apart)) with
        ⟨seen, named⟩
      have accepted := accept_of_after?_eq_some
        (@after?_of_blanks before "from" 'f' ['r', 'o', 'm'] blankBefore rfl rfl tail seen)
      have stops : ∀ c ∈ (blanks ++ [';']).head?, (!isAsciiSpace c && !(c == ';')) = false := by
        cases blanks with
        | nil =>
            rintro c ⟨rfl⟩
            rfl
        | cons c blanks =>
            rintro d ⟨rfl⟩
            simp [List.all_eq_true.mp blank c List.mem_cons_self]
      rcases @wordUpTo_eq_ok (fun c => c == ';') ((before ++ "from".toList).reverse ++ seen) behind
        scope (blanks ++ [';']) blankBehind isWord stops with ⟨last, worded⟩
      refine ⟨⟨.ofWritten name, some (String.ofList scope)⟩, last, ?_⟩
      have isText : "import".toList ++ (gap ++ name ++ (before ++ "from".toList ++
          (behind ++ scope))) ++ (blanks ++ [';']) =
            "import".toList ++ (gap ++ name ++ (before ++ "from".toList ++ tail)) := by
        simp only [tail, List.append_assoc]
      rw [isText, importDecl, bind_of_eq_ok (keywordRead _), bind_of_eq_ok named,
        bind_of_eq_ok accepted]
      exact bind_of_eq_ok worded

end AnalyzerGlue.Evt.Statement
