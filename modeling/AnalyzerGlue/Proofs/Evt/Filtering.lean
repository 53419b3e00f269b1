import Mathlib.Data.List.Forall2
import Mathlib.Data.String.Basic
import AnalyzerGlue.Evt.Conditional
import AnalyzerGlue.Proofs.Evt.Scanning

/-!
# Lines that conditional parts keep

A line is kept as it is or becomes an empty line, and a directive always becomes
one.  So whatever stands on a line of the text that is left stands on the same
line of the source, and that line is no directive.
-/

namespace AnalyzerGlue.Evt

open AnalyzerGlue.Text

namespace Conditional

/-! ## Directives -/

/-- The state inside a group that has been opened. -/
def opened (state : Conditional) (holds : Bool) : Conditional :=
  { state with groups := ⟨state.keeps, holds, false, state.keeps && holds⟩ :: state.groups }

theorem get_bind (state : Conditional) (next : Conditional → EStateM EvtError Conditional Unit) :
    (get >>= next) state = next state state :=
  rfl

theorem ne_unexpectedEnd_of_evaluate {version : Nat} {condition : List Char} {cause : EvtError}
    (failed : evaluate version condition = .error cause) : cause ≠ .unexpectedEnd := by
  unfold evaluate at failed
  extract_lets text negated operand name at failed
  split at failed
  · cases failed
    simp
  · split at failed
    · cases failed
      simp
    · split at failed
      · cases failed
        simp
      · cases failed

/-- A directive that leads on is one of three.  It opens a group, goes on to its other part,
or closes it. -/
def Moves (directive condition : List Char) (state next : Conditional) : Prop :=
  (directive = "@if".toList ∧
    ∃ holds, evaluate state.version condition = .ok holds ∧ next = state.opened holds) ∨
  (directive = "@else".toList ∧
    ∃ group outer, state.groups = group :: outer ∧ group.seenElse = false ∧
      next = { state with groups :=
        { group with seenElse := true, kept := group.outer && !group.holds } :: outer }) ∨
  directive = "@endif".toList ∧
    ∃ group outer, state.groups = group :: outer ∧ next = { state with groups := outer }

/-- A directive leads on, or it fails.  If it fails, then not because of the end of the text,
and the state is as it was. -/
theorem process_cases (directive condition : List Char) (state : Conditional) :
    (∃ next, process directive condition state = .ok () next ∧
      Moves directive condition state next) ∨
    ∃ cause, process directive condition state = .error cause state ∧
      cause ≠ .unexpectedEnd := by
  rw [process, get_bind]
  generalize isNamed : String.ofList directive = name
  split
  · cases evaluated : evaluate state.version condition with
    | error error => exact .inr ⟨_, rfl, ne_unexpectedEnd_of_evaluate evaluated⟩
    | ok holds => exact .inl ⟨_, rfl, .inl ⟨String.ofList_eq.mp isNamed, holds, evaluated, rfl⟩⟩
  · cases isStack : state.groups with
    | nil => exact .inr ⟨_, rfl, by simp⟩
    | cons group outer =>
        cases seen : group.seenElse with
        | true => exact .inr ⟨.duplicateElse, by simp only [seen]; rfl, by simp⟩
        | false =>
            exact .inl ⟨_, by simp only [seen]; rfl,
              .inr (.inl ⟨String.ofList_eq.mp isNamed, group, outer, isStack, seen, rfl⟩)⟩
  · cases isStack : state.groups with
    | nil => exact .inr ⟨_, rfl, by simp⟩
    | cons group outer =>
        exact .inl ⟨_, rfl,
          .inr (.inr ⟨String.ofList_eq.mp isNamed, group, outer, isStack, rfl⟩)⟩
  · exact .inr ⟨_, rfl, by simp⟩

theorem process_eq_ok_iff {state next : Conditional} {directive condition : List Char} :
    process directive condition state = .ok () next ↔ Moves directive condition state next := by
  constructor
  · intro processed
    rcases process_cases directive condition state with ⟨_, isOk, moves⟩ | ⟨_, isError, _⟩
    · cases isOk.symm.trans processed
      exact moves
    · cases isError.symm.trans processed
  · rintro (⟨rfl, holds, evaluated, rfl⟩ | ⟨rfl, group, outer, isStack, unseen, rfl⟩ |
      ⟨rfl, group, outer, isStack, rfl⟩)
    · rw [process, get_bind, String.ofList_toList]
      simp only [evaluated]
      rfl
    · rw [process, get_bind, String.ofList_toList]
      simp only [isStack, unseen]
      rfl
    · rw [process, get_bind, String.ofList_toList]
      simp only [isStack]
      rfl

theorem of_process_eq_error {state left : Conditional} {directive condition : List Char}
    {cause : EvtError} (failed : process directive condition state = .error cause left) :
    left = state ∧ cause ≠ .unexpectedEnd := by
  rcases process_cases directive condition state with ⟨_, isOk, _⟩ | ⟨_, isError, known⟩
  · cases isOk.symm.trans failed
  · cases isError.symm.trans failed
    exact ⟨rfl, known⟩

/-! ## Lines -/

/-- What may become of a line. -/
def KeptOrEmpty (line kept : List Char) : Prop :=
  kept = [] ∨ kept = line ∧ directive? line = none

/-- Each line is kept or becomes an empty one. -/
theorem forall₂_of_filterLines {path : Path} {number : Nat} {state final : Conditional}
    {all kept : List (List Char)}
    (filtered : filterLines path number state all = (final, .ok kept)) :
    List.Forall₂ KeptOrEmpty all kept := by
  fun_induction filterLines path number state all generalizing kept with
  | case1 =>
      cases filtered
      exact .nil
  | case2 => cases filtered
  | case3 _ _ line rest _ _ _ _ _ _ _ result filteredRest ih =>
      cases result with
      | error => cases filtered
      | ok others =>
          cases filtered
          exact .cons (.inl rfl) (ih filteredRest)
  | case4 _ state line rest noDirective _ result filteredRest ih =>
      cases result with
      | error => cases filtered
      | ok others =>
          cases filtered
          refine .cons ?_ (ih filteredRest)
          split
          · exact .inr ⟨rfl, noDirective⟩
          · exact .inl rfl

/-- If going through the lines fails, it does so at one of them. -/
theorem exists_of_filterLines_eq_error {path : Path} {number : Nat} {state final : Conditional}
    {all : List (List Char)} {error : Located EvtError}
    (failed : filterLines path number state all = (final, .error error)) :
    ∃ cause index, error = .reportedAt cause ⟨path, number + index⟩ ∧ index < all.length ∧
      cause ≠ .unexpectedEnd := by
  fun_induction filterLines path number state all with
  | case1 => cases failed
  | case2 number _ line rest _ _ _ cause _ failedHere =>
      cases failed
      exact ⟨cause, 0, rfl, Nat.zero_lt_succ _, (of_process_eq_error failedHere).2⟩
  | case3 _ _ line rest _ _ _ _ _ _ _ result filteredRest ih
  | case4 _ _ line rest _ _ result filteredRest ih =>
      cases result with
      | error =>
          cases failed
          rcases ih filteredRest with ⟨cause, index, rfl, bound, known⟩
          exact ⟨cause, index + 1, by rw [Nat.add_assoc, Nat.add_comm 1],
            Nat.succ_lt_succ bound, known⟩
      | ok others => cases failed

/-- The text that is left has a line for each line of the source. -/
theorem exists_of_filter_eq_ok {state : Conditional} {path : Path} {source text : List Char}
    (filtered : (state.filter path source).2 = .ok text) :
    ∃ kept, List.Forall₂ KeptOrEmpty (lines source) kept ∧
      text = kept.flatMap fun line => line ++ ['\n'] := by
  unfold filter at filtered
  simp only at filtered
  split at filtered
  · cases filtered
  · rename_i final kept filteredLines
    split at filtered
    · cases filtered
    · cases filtered
      exact ⟨kept, forall₂_of_filterLines filteredLines, rfl⟩

/-- If it fails, then at a line of the source: at the directive that is wrong, or
at the last line if a group is left open. -/
theorem exists_of_filter_eq_error {version : Nat} {path : Path} {source : List Char}
    {error : Located EvtError} (failed : ((start version).filter path source).2 = .error error) :
    ∃ cause number, error = .reportedAt cause ⟨path, number⟩ ∧ cause ≠ .unexpectedEnd ∧
      1 ≤ number ∧ number ≤ (lines source).length := by
  unfold filter at failed
  simp only at failed
  split at failed
  · rename_i failedLines
    cases failed
    rcases exists_of_filterLines_eq_error failedLines with ⟨cause, index, rfl, bound, known⟩
    exact ⟨cause, 1 + index, rfl, known, Nat.le_add_right 1 index, by omega⟩
  · rename_i final kept filteredLines
    split at failed
    · rename_i isOpen
      cases failed
      refine ⟨_, _, rfl, by simp, ?_, Nat.le_refl _⟩
      -- Without lines no group is opened.
      cases isLines : lines source with
      | nil =>
          rw [isLines] at filteredLines
          cases filteredLines
          cases isOpen
      | cons line others => exact Nat.succ_le_succ (Nat.zero_le _)
    · cases failed

end Conditional

/-! ## Places in the text that is left -/

theorem count_flatMap_lines {kept : List (List Char)} (noFeed : ∀ line ∈ kept, '\n' ∉ line) :
    (kept.flatMap fun line => line ++ ['\n']).count '\n' = kept.length := by
  induction kept with
  | nil => rfl
  | cons line kept ih =>
      rcases List.forall_mem_cons.mp noFeed with ⟨here, others⟩
      rw [List.flatMap_cons, List.count_append, List.count_append, List.count_eq_zero.mpr here,
        ih others, List.length_cons]
      simp
      omega

/-- A character before the end of a line is in the line, and so is what is before
it. -/
theorem eq_append_of_append_feed_eq {line before behind : List Char} {c : Char}
    (visible : c ≠ '\n') (split : line ++ ['\n'] = before ++ c :: behind) :
    ∃ rest, line = before ++ c :: rest := by
  rcases List.eq_nil_or_concat behind with rfl | ⟨front, last, rfl⟩
  · have lastChar := (List.append_inj' split rfl).2
    cases lastChar
    exact absurd rfl visible
  · rw [List.concat_eq_append, ← List.cons_append, ← List.append_assoc] at split
    exact ⟨front, (List.append_inj' split rfl).1⟩

/-- What is on a line of the text that lines make up is in that line. -/
theorem exists_of_onLine_flatMap {kept : List (List Char)} {c : Char} {number : Nat}
    (noFeed : ∀ line ∈ kept, '\n' ∉ line) (visible : c ≠ '\n')
    (onLine : OnLine (kept.flatMap fun line => line ++ ['\n']) c number) :
    ∃ index line, number = index + 1 ∧ kept[index]? = some line ∧ c ∈ line := by
  induction kept generalizing number with
  | nil =>
      rcases onLine with ⟨before, behind, split, _⟩
      simp at split
  | cons line kept ih =>
      rcases List.forall_mem_cons.mp noFeed with ⟨here, others⟩
      rcases onLine with ⟨before, behind, split, rfl⟩
      have later : ∀ front, before = (line ++ ['\n']) ++ front →
          (kept.flatMap fun line => line ++ ['\n']) = front ++ c :: behind →
          ∃ index found, before.count '\n' + 1 = index + 1 ∧
            (line :: kept)[index]? = some found ∧ c ∈ found := by
        rintro front rfl splitRest
        rcases ih others ⟨front, behind, splitRest, rfl⟩ with
          ⟨index, found, isIndex, isLine, member⟩
        refine ⟨index + 1, found, ?_, isLine, member⟩
        simp only [List.count_append, List.count_eq_zero.mpr here, List.count_singleton_self]
        omega
      rw [List.flatMap_cons] at split
      rcases List.append_eq_append_iff.mp split with ⟨front, isBefore, splitRest⟩ |
          ⟨front, splitLine, isRest⟩
      · exact later front isBefore splitRest
      · cases front with
        | nil => exact later [] (by simpa using splitLine.symm) (by simpa using isRest.symm)
        | cons d front =>
            cases isRest
            rcases eq_append_of_append_feed_eq visible splitLine with ⟨rest, rfl⟩
            refine ⟨0, _, ?_, rfl, by simp⟩
            have noFeedBefore : '\n' ∉ before := fun member => here (List.mem_append_left _ member)
            rw [List.count_eq_zero.mpr noFeedBefore]

/-- Whether a character occurs on a line of a source, and the line is no
directive. -/
def OnSourceLine (source : List Char) (c : Char) (number : Nat) : Prop :=
  ∃ index line, number = index + 1 ∧ (lines source)[index]? = some line ∧ c ∈ line ∧
    Conditional.directive? line = none

/-- Such a line is one of the source. -/
theorem OnSourceLine.bounds {source : List Char} {c : Char} {number : Nat}
    (onLine : OnSourceLine source c number) : 1 ≤ number ∧ number ≤ (lines source).length := by
  rcases onLine with ⟨index, line, rfl, isLine, _⟩
  rcases List.getElem?_eq_some_iff.mp isLine with ⟨bound, _⟩
  exact ⟨Nat.le_add_left 1 index, bound⟩

section

open Conditional

variable {source text : List Char} {kept : List (List Char)}

/-- What has become of a line stands where the line stood. -/
theorem exists_getElem?_of_keptOrEmpty (each : List.Forall₂ KeptOrEmpty (lines source) kept)
    {index : Nat} {line : List Char} (isLine : kept[index]? = some line) :
    ∃ original, (lines source)[index]? = some original ∧ KeptOrEmpty original line := by
  rcases List.getElem?_eq_some_iff.mp isLine with ⟨bound, isElement⟩
  have boundSource : index < (lines source).length := by rwa [each.length_eq]
  refine ⟨(lines source)[index], List.getElem?_eq_getElem boundSource, ?_⟩
  rw [← isElement]
  exact each.get boundSource bound

theorem noFeed_of_keptOrEmpty (each : List.Forall₂ KeptOrEmpty (lines source) kept) :
    ∀ line ∈ kept, '\n' ∉ line := by
  intro line member
  rcases List.mem_iff_getElem?.mp member with ⟨index, isLine⟩
  rcases exists_getElem?_of_keptOrEmpty each isLine with ⟨original, isOriginal, becomes⟩
  rcases becomes with rfl | ⟨rfl, _⟩
  · simp
  · exact not_mem_of_mem_lines (List.mem_of_getElem? isOriginal)

/-- What is on a line of the text that is left is on the same line of the source. -/
theorem onSourceLine_of_onLine {state : Conditional} {path : Path} {c : Char} {number : Nat}
    (filtered : (state.filter path source).2 = .ok text) (visible : c ≠ '\n')
    (onLine : OnLine text c number) : OnSourceLine source c number := by
  rcases exists_of_filter_eq_ok filtered with ⟨kept, each, rfl⟩
  rcases exists_of_onLine_flatMap (noFeed_of_keptOrEmpty each) visible onLine with
    ⟨index, line, isNumber, isLine, member⟩
  rcases exists_getElem?_of_keptOrEmpty each isLine with ⟨original, isOriginal, becomes⟩
  rcases becomes with rfl | ⟨rfl, noDirective⟩
  · cases member
  · exact ⟨index, line, isNumber, isOriginal, member, noDirective⟩

/-- The text that is left has as many line feeds as the source has lines. -/
theorem count_of_filter_eq_ok {state : Conditional} {path : Path}
    (filtered : (state.filter path source).2 = .ok text) :
    text.count '\n' = (lines source).length := by
  rcases exists_of_filter_eq_ok filtered with ⟨kept, each, rfl⟩
  rw [count_flatMap_lines (noFeed_of_keptOrEmpty each), each.length_eq]

end

end AnalyzerGlue.Evt
