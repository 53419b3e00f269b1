import AnalyzerGlue.Proofs.Evt.Layout
import AnalyzerGlue.Proofs.QualName.Escaping
import AnalyzerGlue.Proofs.Text.Space

/-!
# Texts that are cut off whole

The readers cut ids, words and arguments off the text behind the cursor.  Here
these parts are described by themselves: an id is a text that is taken whole, and
an argument is one behind which no string and no bracket is open.  What is cut off
a text is always such a part, and such a part is cut off again wherever something
follows that ends it.
-/

namespace AnalyzerGlue.Evt.Reader

open AnalyzerGlue.Text

/-! ## Ids -/

/-- The characters that an id may go on with in some place. -/
def isIdPart (c : Char) : Bool :=
  c.isAlphanum || c == '_' || c == '$' || c == '%' || c == ':'

/-- Texts that end an id before them. -/
def EndsId (rest : List Char) : Prop :=
  ∀ c ∈ rest.head?, isIdPart c = false

/-- Ids as they are stored: texts that are taken whole, with percent signs
escaped. -/
structure IsId (text : List Char) : Prop where
  notNil : text ≠ []
  whole : cutId none text = (text, [])
  noPercent : '%' ∉ text

theorem isIdPart_of_isIdChar {before behind : Option Char} {c : Char}
    (belongs : isIdChar before c behind = true) : isIdPart c = true := by
  simp only [isIdChar, Bool.or_eq_true, Bool.and_eq_true] at belongs
  simp only [isIdPart, Bool.or_eq_true]
  rcases belongs with belongs | ⟨isColon, _⟩
  · exact .inl belongs
  · exact .inr isColon

/-- What is before and behind a character matters only if it is a colon. -/
theorem isIdChar_congr {before before' behind behind' : Option Char} (c : Char)
    (sameBefore : (before == some ':') = (before' == some ':'))
    (sameBehind : (behind == some ':') = (behind' == some ':')) :
    isIdChar before c behind = isIdChar before' c behind' := by
  simp only [isIdChar, sameBefore, sameBehind]

theorem cutId_congr {before before' : Option Char}
    (same : (before == some ':') = (before' == some ':')) (text : List Char) :
    cutId before text = cutId before' text := by
  cases text with
  | nil => rfl
  | cons c rest => rw [cutId, cutId, isIdChar_congr c same rfl]

theorem cutId_cons {before : Option Char} {c : Char} {text taken rest : List Char}
    (belongs : isIdChar before c text.head? = true)
    (cut : cutId (some c) text = (taken, rest)) :
    cutId before (c :: text) = (c :: taken, rest) := by
  rw [cutId, if_pos belongs, cut]

/-- How a text is cut at its first character. -/
theorem cutId_cons_cases {before : Option Char} {c : Char} {text taken rest : List Char}
    (cut : cutId before (c :: text) = (taken, rest)) :
    (∃ others, taken = c :: others ∧ isIdChar before c text.head? = true ∧
      cutId (some c) text = (others, rest)) ∨
    (taken = [] ∧ rest = c :: text ∧ isIdChar before c text.head? = false) := by
  rw [cutId] at cut
  split at cut
  · rename_i belongs
    cases cut
    exact .inl ⟨_, rfl, belongs, rfl⟩
  · rename_i ends
    cases cut
    exact .inr ⟨rfl, rfl, by simpa using ends⟩

/-- An id is taken whole if what follows it ends it. -/
theorem cutId_append {before : Option Char} {text rest : List Char}
    (whole : cutId before text = (text, [])) (ends : EndsId rest) :
    cutId before (text ++ rest) = (text, rest) := by
  induction text generalizing before with
  | nil =>
      cases rest with
      | nil => rfl
      | cons c rest =>
          rw [List.nil_append, cutId, if_neg]
          intro belongs
          have isPart := isIdPart_of_isIdChar belongs
          rw [ends c rfl] at isPart
          cases isPart
  | cons c text ih =>
      rcases cutId_cons_cases whole with ⟨others, isText, belongs, cut⟩ | ⟨isNil, _⟩
      · cases isText
        refine cutId_cons ?_ (ih cut)
        rw [← belongs]
        refine isIdChar_congr c rfl ?_
        cases text with
        | nil =>
            cases rest with
            | nil => rfl
            | cons d rest =>
                have noColon : d ≠ ':' := by
                  rintro rfl
                  exact absurd (ends ':' rfl) (by decide)
                simp [noColon]
        | cons d text => rfl
      · cases isNil

/-- What is cut off a text is taken whole. -/
theorem cutId_of_cutId {before : Option Char} {text taken rest : List Char}
    (cut : cutId before text = (taken, rest)) :
    text = taken ++ rest ∧ cutId before taken = (taken, []) := by
  induction text generalizing before taken with
  | nil =>
      cases cut
      exact ⟨rfl, rfl⟩
  | cons c text ih =>
      rcases cutId_cons_cases cut with ⟨others, rfl, belongs, cutRest⟩ | ⟨rfl, rfl, _⟩
      · rcases ih cutRest with ⟨rfl, whole⟩
        refine ⟨rfl, cutId_cons ?_ whole⟩
        cases others with
        | cons d others => exact belongs
        | nil =>
            -- A colon behind this character would have been taken too.
            by_cases isColon : c = ':' ∧ rest.head? = some ':'
            · rcases isColon with ⟨rfl, isNext⟩
              cases rest with
              | nil => cases isNext
              | cons d rest =>
                  cases isNext
                  rw [List.nil_append, cutId, if_pos (by simp [isIdChar])] at cutRest
                  cases cutRest
            · rw [← belongs, List.nil_append]
              simp only [isIdChar, List.head?_nil]
              by_cases isFirst : c = ':'
              · have noColon : (rest.head? == some ':') = false := by
                  rw [beq_eq_false_iff_ne]
                  exact fun isNext => isColon ⟨isFirst, isNext⟩
                rw [noColon]
                rfl
              · rw [beq_eq_false_iff_ne.mpr isFirst]
                rfl
      · exact ⟨rfl, rfl⟩

theorem head?_escapePercent (text : List Char) :
    ((QualName.escapePercent text).head? == some ':') = (text.head? == some ':') := by
  cases text with
  | nil => rfl
  | cons c text =>
      by_cases isPercent : c = '%'
      · subst isPercent
        rfl
      · simp [QualName.escapePercent, isPercent]

/-- An id is taken whole also with its percent signs escaped. -/
theorem cutId_escapePercent {before : Option Char} {text : List Char}
    (whole : cutId before text = (text, [])) :
    cutId before (QualName.escapePercent text) = (QualName.escapePercent text, []) := by
  induction text generalizing before with
  | nil => rfl
  | cons c text ih =>
      rcases cutId_cons_cases whole with ⟨others, isText, belongs, cut⟩ | ⟨isNil, _⟩
      · cases isText
        by_cases isPercent : c = '%'
        · subst isPercent
          have goesOn : cutId (some '_') (QualName.escapePercent text) =
              (QualName.escapePercent text, []) :=
            (@cutId_congr (some '_') (some '%') rfl _).trans (ih cut)
          have isEscape : QualName.escapePercent ('%' :: text) =
              '0' :: 'x' :: '2' :: '5' :: '_' :: QualName.escapePercent text := rfl
          rw [isEscape]
          exact cutId_cons (by simp [isIdChar]) <| cutId_cons (by simp [isIdChar]) <|
            cutId_cons (by simp [isIdChar]) <| cutId_cons (by simp [isIdChar]) <|
            cutId_cons (by simp [isIdChar]) goesOn
        · rw [QualName.escapePercent_cons isPercent]
          refine cutId_cons ?_ (ih cut)
          rw [← belongs]
          exact isIdChar_congr c rfl (head?_escapePercent text)
      · cases isNil

/-- An id that is cut off behind something else than a colon is stored as an id. -/
theorem isId_of_cutId {before : Option Char} {text taken rest : List Char}
    (cut : cutId before text = (taken, rest)) (noColon : before ≠ some ':')
    (notNil : taken ≠ []) : IsId (QualName.escapePercent taken) := by
  have same : (none == some ':') = (before == some ':') := by
    rw [beq_eq_false_iff_ne.mpr noColon]
    rfl
  have whole : cutId none taken = (taken, []) :=
    (cutId_congr same taken).trans (cutId_of_cutId cut).2
  refine ⟨?_, cutId_escapePercent whole,
    QualName.percent_not_mem_escapePercent taken⟩
  intro isNil
  cases taken with
  | nil => exact notNil rfl
  | cons c taken =>
      unfold QualName.escapePercent at isNil
      rw [List.flatMap_cons, List.append_eq_nil_iff] at isNil
      have head := isNil.1
      split at head <;> cases head

/-! ## Words -/

/-- Words up to white space or a character that ends them. -/
def IsWord (ends : Char → Bool) (text : List Char) : Prop :=
  text ≠ [] ∧ ∀ c ∈ text, (!isAsciiSpace c && !ends c) = true

/-! ## Arguments -/

/-- Where a character leads to in an expression, as long as it does not end the
expression: in or out of a string, and how many brackets are open. -/
def step? : Inside × Nat → Char → Option (Inside × Nat)
  | (.escape, level), _ => some (.string, level)
  | (.string, level), c =>
      if c = '\\' then some (.escape, level)
      else if c = '"' then some (.code, level)
      else some (.string, level)
  | (.code, level), c =>
      if c = '(' ∨ c = '[' ∨ c = '\x7b' then some (.code, level + 1)
      else if level = 0 ∧ (c = ')' ∨ c = ',') then none
      else if c = ')' ∨ c = ']' ∨ c = '\x7d' then
        match level with
        | 0 => none
        | outer + 1 => some (.code, outer)
      else if c = '"' then some (.string, level)
      else some (.code, level)

/-- Texts behind which no string and no bracket is open, and in which nothing ends
an expression. -/
def IsBalanced (text : List Char) : Prop :=
  text.foldlM step? (.code, 0) = some (.code, 0)

/-- A character is taken if it leads on, and else ends the expression or is a
bracket too many. -/
theorem cutExpr_cons (inside : Inside) (level : Nat) (c : Char) (rest : List Char) :
    cutExpr inside level (c :: rest) =
      match step? (inside, level) c with
      | some next => cutExpr.extend c (cutExpr next.1 next.2 rest)
      | none => if c = ')' ∨ c = ',' then .ok ([], c :: rest) else .error (.unbalanced c) := by
  cases inside with
  | escape => rfl
  | string =>
      rw [cutExpr, step?]
      by_cases isEscape : c = '\\'
      · simp only [if_pos isEscape]
      by_cases isQuote : c = '"'
      · simp only [if_neg isEscape, if_pos isQuote]
      · simp only [if_neg isEscape, if_neg isQuote]
  | code =>
      conv => lhs; unfold cutExpr
      by_cases opens : c = '(' ∨ c = '[' ∨ c = '\x7b'
      · simp only [step?, if_pos opens]
      by_cases ends : level = 0 ∧ (c = ')' ∨ c = ',')
      · simp only [step?, if_neg opens, if_pos ends, if_pos ends.2]
      by_cases closes : c = ')' ∨ c = ']' ∨ c = '\x7d'
      · cases level with
        | zero =>
            have noEnd : ¬ (c = ')' ∨ c = ',') := fun isEnd => ends ⟨rfl, isEnd⟩
            simp [step?, opens, closes, noEnd]
        | succ outer => simp [step?, opens, closes]
      by_cases isQuote : c = '"'
      · simp only [step?, if_neg opens, if_neg ends, if_neg closes, if_pos isQuote]
      · simp only [step?, if_neg opens, if_neg ends, if_neg closes, if_neg isQuote]

/-- Only where no string and no bracket is open does a character not lead on. -/
theorem eq_of_step?_eq_none {state : Inside × Nat} {c : Char} (stops : step? state c = none) :
    state = (.code, 0) := by
  rcases state with ⟨inside, level⟩
  cases inside with
  | escape => cases stops
  | string =>
      rw [step?] at stops
      split at stops
      · cases stops
      · split at stops <;> cases stops
  | code =>
      cases level with
      | zero => rfl
      | succ outer =>
          simp only [step?, Nat.add_one_ne_zero, false_and, if_false] at stops
          split at stops
          · cases stops
          · split at stops
            · cases stops
            · split at stops <;> cases stops

/-- A text that leads on is taken whole. -/
theorem cutExpr_append {text : List Char} {inside : Inside} {level : Nat} {next : Inside × Nat}
    (leads : text.foldlM step? (inside, level) = some next) (rest : List Char) :
    cutExpr inside level (text ++ rest) =
      (cutExpr next.1 next.2 rest).map fun cut => (text ++ cut.1, cut.2) := by
  induction text generalizing inside level with
  | nil =>
      cases leads
      rw [List.nil_append]
      rcases cutExpr inside level rest with error | ⟨taken, left⟩ <;> rfl
  | cons c text ih =>
      rw [List.foldlM_cons] at leads
      rcases Option.bind_eq_some_iff.mp leads with ⟨middle, steps, leadsOn⟩
      rw [List.cons_append, cutExpr_cons, steps]
      simp only [ih leadsOn]
      rcases cutExpr next.1 next.2 rest with error | ⟨taken, left⟩ <;> rfl

/-- What is cut off before another character leads to where no string and no bracket
is open. -/
theorem leads_of_cutExpr {inside : Inside} {level : Nat} {text taken rest : List Char} {c : Char}
    (cut : cutExpr inside level text = .ok (taken, c :: rest)) :
    taken.foldlM step? (inside, level) = some (.code, 0) := by
  induction text generalizing inside level taken with
  | nil => cases inside <;> cases cut
  | cons d others ih =>
      rw [cutExpr_cons] at cut
      split at cut
      · rename_i next steps
        rcases cutRest : cutExpr next.1 next.2 others with error | ⟨takenRest, left⟩
        · rw [cutRest] at cut
          cases cut
        · rw [cutRest] at cut
          cases cut
          rw [List.foldlM_cons, steps]
          exact ih cutRest
      · rename_i stops
        split at cut
        · cases cut
          exact congrArg some (eq_of_step?_eq_none stops)
        · cases cut

/-- Between strings, white space leads nowhere else. -/
theorem step?_of_isSpace {c : Char} (blank : isSpace c = true) (level : Nat) :
    step? (.code, level) c = some (.code, level) := by
  have inert := isInert_iff.mp (isInert_of_isSpace blank)
  simp [step?, inert]

/-- Before white space no string is open if none is open behind it. -/
theorem eq_of_step?_isSpace {c : Char} (blank : isSpace c = true) {state : Inside × Nat}
    {level : Nat} (steps : step? state c = some (.code, level)) : state = (.code, level) := by
  rcases isInert_iff.mp (isInert_of_isSpace blank) with ⟨noQuote, noEscape, _⟩
  rcases state with ⟨inside, other⟩
  cases inside with
  | escape => cases steps
  | string =>
      rw [step?, if_neg noEscape, if_neg noQuote] at steps
      cases steps
  | code =>
      rw [step?_of_isSpace blank] at steps
      exact Option.some.inj steps

theorem isBalanced_trimStart {text : List Char} (balanced : IsBalanced text) :
    IsBalanced (trimStart text) := by
  unfold trimStart
  induction text with
  | nil => exact balanced
  | cons c rest ih =>
      cases blank : isSpace c with
      | false => rwa [List.dropWhile_cons_of_neg (by simp [blank])]
      | true =>
          rw [List.dropWhile_cons_of_pos blank]
          refine ih ?_
          unfold IsBalanced at balanced
          rwa [List.foldlM_cons, step?_of_isSpace blank] at balanced

theorem isBalanced_trimEnd {text : List Char} (balanced : IsBalanced text) :
    IsBalanced (trimEnd text) := by
  unfold trimEnd
  -- The last character is the first one of the text turned around.
  rw [← List.reverse_reverse text] at balanced
  generalize text.reverse = turned at balanced ⊢
  induction turned with
  | nil => exact balanced
  | cons c rest ih =>
      cases blank : isSpace c with
      | false => rwa [List.dropWhile_cons_of_neg (by simp [blank])]
      | true =>
          rw [List.dropWhile_cons_of_pos blank]
          refine ih ?_
          unfold IsBalanced at balanced
          rw [List.reverse_cons, List.foldlM_append] at balanced
          rcases Option.bind_eq_some_iff.mp balanced with ⟨state, leads, leadsOn⟩
          rw [List.foldlM_cons] at leadsOn
          rcases Option.bind_eq_some_iff.mp leadsOn with ⟨last, steps, isLast⟩
          cases isLast
          rwa [eq_of_step?_isSpace blank steps] at leads

/-- Arguments as they are stored: balanced texts without white space around them. -/
structure IsArgument (text : List Char) : Prop where
  notNil : text ≠ []
  balanced : IsBalanced text
  trimmed : trim text = text

/-- An expression that is cut off before another character is stored as an
argument. -/
theorem isArgument_of_cutExpr {text taken rest : List Char} {c : Char}
    (cut : cutExpr .code 0 text = .ok (taken, c :: rest)) (visible : trim taken ≠ []) :
    IsArgument (trim taken) where
  notNil := visible
  balanced := isBalanced_trimEnd (isBalanced_trimStart (leads_of_cutExpr cut))
  trimmed := trim_trim taken

/-- A balanced text is cut off before a comma or a closing parenthesis. -/
theorem cutExpr_of_isBalanced {text rest : List Char} {c : Char} (balanced : IsBalanced text)
    (ends : c = ')' ∨ c = ',') : cutExpr .code 0 (text ++ c :: rest) = .ok (text, c :: rest) := by
  rw [cutExpr_append balanced]
  rcases ends with rfl | rfl <;> simp [cutExpr, Except.map]

end AnalyzerGlue.Evt.Reader
