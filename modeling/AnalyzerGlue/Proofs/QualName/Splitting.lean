import AnalyzerGlue.QualName

/-!
# Names taken apart and put together

A name is taken apart at the last `::` in it.  Separators overlap in a run of colons, and
then the last one is made of the last two colons of the run.  So a part that is put behind a
name comes off again only if it neither holds a separator nor makes one with the colon
before it.  A name is put together again from its parts unless its last separator stands at
its start, because behind the empty name the separator is left out.
-/

namespace AnalyzerGlue.QualName

/-- What sets the parts of a name apart. -/
def separator : List Char := [':', ':']

/-- The separator between the two parts is the last one of the text: no other one has more
characters before it. -/
structure IsLastSplit (text before after : List Char) : Prop where
  joined : text = before ++ separator ++ after
  last : ∀ {front behind}, text = front ++ separator ++ behind → front.length ≤ before.length

/-! ## The last separator -/

section

variable {text before after : List Char}

theorem IsLastSplit.unique {front behind : List Char} (split : IsLastSplit text before after)
    (other : IsLastSplit text front behind) : before = front ∧ after = behind := by
  have sameLength : before.length = front.length :=
    Nat.le_antisymm (other.last split.joined) (split.last other.joined)
  have same : before ++ separator ++ after = front ++ separator ++ behind :=
    split.joined.symm.trans other.joined
  rw [List.append_assoc, List.append_assoc] at same
  rcases List.append_inj same sameLength with ⟨rfl, sameRest⟩
  exact ⟨rfl, List.append_cancel_left sameRest⟩

theorem separator_prefix_cons_iff {c : Char} {rest : List Char} :
    separator <+: c :: rest ↔ c = ':' ∧ rest.head? = some ':' := by
  cases rest with
  | nil => simp [separator]
  | cons d rest => simp [separator, eq_comm]

theorem not_infix_of_splitLast?_eq_none (unsplit : splitLast? text = none) :
    ¬ separator <:+: text := by
  fun_induction splitLast? text with
  | case1 => decide
  | case2 => cases unsplit
  | case3 => cases unsplit
  | case4 c rest noSplit noPair ih =>
      rw [List.infix_cons_iff, not_or]
      refine ⟨?_, ih noSplit⟩
      rw [separator_prefix_cons_iff]
      rintro ⟨rfl, isColon⟩
      rcases List.head?_eq_some_iff.mp isColon with ⟨after, rfl⟩
      exact noPair after rfl rfl

theorem isLastSplit_of_splitLast? (split : splitLast? text = some (before, after)) :
    IsLastSplit text before after := by
  fun_induction splitLast? text generalizing before after with
  | case1 => cases split
  | case2 c rest front behind isSplit ih =>
      cases split
      have inRest := ih isSplit
      refine ⟨congrArg (c :: ·) inRest.joined, ?_⟩
      intro front behind joined
      cases front with
      | nil => exact Nat.zero_le _
      | cons d front => exact Nat.succ_le_succ (inRest.last (List.cons.inj joined).2)
  | case3 rest noSplit =>
      cases split
      refine ⟨rfl, ?_⟩
      intro front behind joined
      cases front with
      | nil => exact Nat.le_refl _
      | cons d front =>
          -- Behind the first colon there is no separator.
          have occurs : separator <:+: ':' :: rest :=
            ⟨front, behind, (List.cons.inj joined).2.symm⟩
          exact absurd occurs (not_infix_of_splitLast?_eq_none noSplit)
  | case4 => cases split

/-- A text is taken apart at its last separator. -/
theorem splitLast?_eq_some_iff :
    splitLast? text = some (before, after) ↔ IsLastSplit text before after := by
  refine ⟨isLastSplit_of_splitLast?, fun isLast => ?_⟩
  cases split : splitLast? text with
  | none =>
      exact absurd ⟨before, after, isLast.joined.symm⟩ (not_infix_of_splitLast?_eq_none split)
  | some parts =>
      rcases (isLastSplit_of_splitLast? split).unique isLast with ⟨rfl, rfl⟩
      rfl

/-- A separator is the last one if there is none in what follows its first colon. -/
theorem isLastSplit_append_iff :
    IsLastSplit (before ++ separator ++ after) before after ↔ ¬ separator <:+: ':' :: after := by
  constructor
  · rintro isLast ⟨front, behind, isBehind⟩
    have joined : before ++ separator ++ after = before ++ ':' :: front ++ separator ++ behind := by
      simp [separator, ← isBehind]
    have further := isLast.last joined
    simp only [List.length_append, List.length_cons] at further
    omega
  · intro absent
    refine ⟨rfl, ?_⟩
    intro front behind joined
    rw [List.append_assoc, List.append_assoc] at joined
    rcases List.append_eq_append_iff.mp joined with ⟨more, isFront, isRest⟩ | ⟨more, isBefore, _⟩
    · cases more with
      | nil => simp [isFront]
      | cons d more =>
          exact absurd ⟨more, behind, by simpa using (List.cons.inj isRest).2.symm⟩ absent
    · simp [isBefore]

theorem separator_infix_colon_cons_iff {text : List Char} :
    separator <:+: ':' :: text ↔ separator <:+: text ∨ text.head? = some ':' := by
  rw [List.infix_cons_iff, separator_prefix_cons_iff, or_comm]
  simp

end

/-! ## Qualifiers and bases -/

theorem eq_iff_toList_text_eq {name other : QualName} :
    name = other ↔ name.text.toList = other.text.toList := by
  cases name
  cases other
  simp [String.toList_inj]

/-- A name has a qualifier and a base of its own if it has a separator. -/
theorem qualifier_eq_and_base_eq_iff {name outer : QualName} {inner : String}
    (separated : separator <:+: name.text.toList) :
    name.qualifier = outer ∧ name.base = inner ↔
      IsLastSplit name.text.toList outer.text.toList inner.toList := by
  rw [← splitLast?_eq_some_iff, qualifier, base]
  cases split : splitLast? name.text.toList with
  | none => exact absurd separated (not_infix_of_splitLast?_eq_none split)
  | some parts =>
      rcases outer with ⟨text⟩
      simp [Prod.ext_iff, ← String.toList_inj]

theorem toList_text_within {outer : QualName} (named : outer.isEmpty = false) (inner : String) :
    (outer.within inner).text.toList = outer.text.toList ++ separator ++ inner.toList := by
  rw [within, if_neg (by simp [named]), String.toList_append, String.toList_append]
  rfl

/-- A part behind a name comes off again exactly if it adds no further separator. -/
theorem within_splits_iff {outer : QualName} (named : outer.isEmpty = false) (inner : String) :
    (outer.within inner).qualifier = outer ∧ (outer.within inner).base = inner ↔
      ¬ separator <:+: inner.toList ∧ inner.toList.head? ≠ some ':' := by
  have isText := toList_text_within named inner
  have separated : separator <:+: (outer.within inner).text.toList :=
    ⟨outer.text.toList, inner.toList, isText.symm⟩
  rw [qualifier_eq_and_base_eq_iff separated, isText, isLastSplit_append_iff,
    separator_infix_colon_cons_iff, not_or]

/-- The parts of a name give the name again exactly if its last separator, if it has one,
does not stand at its start. -/
theorem qualifier_within_base_eq_iff (name : QualName) :
    name.qualifier.within name.base = name ↔
      ∀ before after, IsLastSplit name.text.toList before after → before ≠ [] := by
  cases split : splitLast? name.text.toList with
  | none =>
      have whole : name.qualifier.within name.base = name := by
        rw [qualifier, base, split]
        rfl
      refine iff_of_true whole fun before after isLast => ?_
      rw [← splitLast?_eq_some_iff, split] at isLast
      cases isLast
  | some parts =>
      rcases parts with ⟨before, after⟩
      have isLast := isLastSplit_of_splitLast? split
      have isWithin : name.qualifier.within name.base =
          within ⟨String.ofList before⟩ (String.ofList after) := by
        rw [qualifier, base, split]
      have onlySplit : (∀ front behind, IsLastSplit name.text.toList front behind → front ≠ []) ↔
          before ≠ [] :=
        ⟨fun notNil => notNil before after isLast,
          fun notNil _ _ other => (isLast.unique other).1 ▸ notNil⟩
      rw [isWithin, onlySplit, eq_iff_toList_text_eq, isLast.joined]
      cases before with
      | nil =>
          refine iff_of_false (fun same => ?_) (fun notNil => notNil rfl)
          have isBase :
              within ⟨String.ofList []⟩ (String.ofList after) = ⟨String.ofList after⟩ := rfl
          rw [isBase, String.toList_ofList] at same
          exact absurd (List.self_eq_append_left.mp same) (by decide)
      | cons c before =>
          have named : (QualName.mk (String.ofList (c :: before))).isEmpty = false := by
            simp [isEmpty]
          refine iff_of_true ?_ (List.cons_ne_nil c before)
          rw [toList_text_within named, String.toList_ofList, String.toList_ofList]

/-- A name is its base within its qualifier exactly if its last separator, if it has one,
does not stand at its start.  A part within a name that is not empty is taken off again
exactly if it has no separator and does not start with a colon. -/
theorem split_join_exact :
    (∀ name : QualName, name.qualifier.within name.base = name ↔
      ∀ before after, IsLastSplit name.text.toList before after → before ≠ []) ∧
    ∀ (outer : QualName) (inner : String), outer.isEmpty = false →
      ((outer.within inner).qualifier = outer ∧ (outer.within inner).base = inner ↔
        ¬ separator <:+: inner.toList ∧ inner.toList.head? ≠ some ':') :=
  ⟨qualifier_within_base_eq_iff, fun _ inner named => within_splits_iff named inner⟩

/-- Colons at the end of a name stay with the name, those at the start of a part do not stay
with the part, and a name that starts with its only separator loses it. -/
theorem split_join_exact_colons :
    IsLastSplit "::a".toList [] "a".toList ∧
      (QualName.mk "::a").qualifier.within (QualName.mk "::a").base ≠ ⟨"::a"⟩ ∧
      (QualName.mk "M:").isEmpty = false ∧
      (((QualName.mk "M:").within "x").qualifier = ⟨"M:"⟩ ∧
        ((QualName.mk "M:").within "x").base = "x") ∧
      ¬ (((QualName.mk "M:").within ":x").qualifier = ⟨"M:"⟩ ∧
        ((QualName.mk "M:").within ":x").base = ":x") := by
  have isLast : IsLastSplit "::a".toList [] "a".toList := isLastSplit_of_splitLast? (by decide)
  have named : (QualName.mk "M:").isEmpty = false := by decide
  refine ⟨isLast, fun same => ?_, named, ?_, fun both => ?_⟩
  · exact (split_join_exact.1 ⟨"::a"⟩).mp same _ _ isLast rfl
  · exact (split_join_exact.2 ⟨"M:"⟩ "x" named).mpr (by decide)
  · exact ((split_join_exact.2 ⟨"M:"⟩ ":x" named).mp both).2 (by decide)

end AnalyzerGlue.QualName
