import AnalyzerGlue.Proofs.Evt.Concatenation

/-!
# Groups of lines and their nesting

Filtering keeps a stack of groups and decides about each line by the innermost one.
What it means is said by how groups nest: a line is kept if each group around it selects
the part in which the line is.  `Nested` gives the sources in which directives form groups,
each with the numbers of its directives.

Going over nested lines leads back to the same stack and keeps what the groups select
(`filterLines_of_nested`).  The other way round, the stack always describes how the lines
before it nest (`Reached`), so that lines which lead to an empty stack are nested.
-/

namespace AnalyzerGlue.Evt

open AnalyzerGlue.Text

/-! ## Groups -/

/-- A group of lines, by the numbers of its directives and by whether its condition
holds. -/
structure Extent where
  opening : Nat
  /-- The line of `@else`, if there is one. -/
  divider : Option Nat
  closing : Nat
  holds : Bool
deriving DecidableEq, Repr

namespace Extent

/-- Whether a line is inside the group. -/
def Encloses (extent : Extent) (number : Nat) : Prop :=
  extent.opening < number ∧ number < extent.closing

instance (extent : Extent) : DecidablePred extent.Encloses := fun number =>
  inferInstanceAs (Decidable (extent.opening < number ∧ number < extent.closing))

/-- Whether a line of the group is in the part that the condition selects: the one before
`@else` if it holds, and the one behind `@else` if not. -/
def Selects (extent : Extent) (number : Nat) : Prop :=
  match extent.divider with
  | none => extent.holds = true
  | some divider => if extent.holds then number < divider else divider < number

instance : (extent : Extent) → DecidablePred extent.Selects
  | ⟨_, none, _, holds⟩, _ => inferInstanceAs (Decidable (holds = true))
  | ⟨_, some divider, _, holds⟩, number =>
      inferInstanceAs (Decidable (if holds then number < divider else divider < number))

end Extent

namespace Conditional

/-- The line is the directive with a name. -/
def IsDirective (name : String) (line : List Char) : Prop :=
  ∃ condition, directive? line = some (name.toList, condition)

/-- The line opens a group, and its condition can be evaluated. -/
def Opens (version : Nat) (line : List Char) (holds : Bool) : Prop :=
  ∃ condition, directive? line = some ("@if".toList, condition) ∧
    evaluate version condition = .ok holds

/-- Lines that are numbered from the given number on and whose directives form groups, and
the extents of these groups. -/
inductive Nested (version : Nat) : Nat → List (List Char) → List Extent → Prop where
  | nil (number : Nat) : Nested version number [] []
  | line {number : Nat} {line : List Char} (noDirective : directive? line = none) :
      Nested version number [line] []
  | append {number : Nat} {first second : List (List Char)} {extents others : List Extent}
      (nestedFirst : Nested version number first extents)
      (nestedSecond : Nested version (number + first.length) second others) :
      Nested version number (first ++ second) (extents ++ others)
  | group {number : Nat} {opening closing : List Char} {body : List (List Char)} {holds : Bool}
      {extents : List Extent} (opens : Opens version opening holds)
      (nested : Nested version (number + 1) body extents) (closes : IsDirective "@endif" closing) :
      Nested version number (opening :: (body ++ [closing]))
        (⟨number, none, number + 1 + body.length, holds⟩ :: extents)
  | divided {number : Nat} {opening divider closing : List Char} {body other : List (List Char)}
      {holds : Bool} {extents others : List Extent} (opens : Opens version opening holds)
      (nested : Nested version (number + 1) body extents) (divides : IsDirective "@else" divider)
      (nestedOther : Nested version (number + 1 + body.length + 1) other others)
      (closes : IsDirective "@endif" closing) :
      Nested version number (opening :: (body ++ divider :: (other ++ [closing])))
        (⟨number, some (number + 1 + body.length),
          number + 1 + body.length + 1 + other.length, holds⟩ :: (extents ++ others))

section

variable {version number : Nat} {all : List (List Char)} {extents : List Extent}

/-- Groups are among the lines that they are groups of. -/
theorem Nested.bounds (nested : Nested version number all extents) :
    ∀ extent ∈ extents, number ≤ extent.opening ∧ extent.closing < number + all.length := by
  induction nested with
  | nil | line => simp
  | append _ _ boundsFirst boundsSecond =>
      simp only [List.length_append, List.forall_mem_append]
      refine ⟨fun extent member => ?_, fun extent member => ?_⟩
      · have within := boundsFirst extent member
        omega
      · have within := boundsSecond extent member
        omega
  | group _ _ _ bounds =>
      simp only [List.length_cons, List.length_append, List.length_nil, List.forall_mem_cons]
      refine ⟨by omega, fun extent member => ?_⟩
      have within := bounds extent member
      omega
  | divided _ _ _ _ _ bounds boundsOther =>
      simp only [List.length_cons, List.length_append, List.length_nil, List.forall_mem_cons,
        List.forall_mem_append]
      refine ⟨by omega, fun extent member => ?_, fun extent member => ?_⟩
      · have within := bounds extent member
        omega
      · have within := boundsOther extent member
        omega

/-! ## Selection -/

/-- All groups around a line select it. -/
def Selected (extents : List Extent) (number : Nat) : Prop :=
  ∀ extent ∈ extents, extent.Encloses number → extent.Selects number

instance (extents : List Extent) : DecidablePred (Selected extents) := fun number =>
  inferInstanceAs (Decidable (∀ extent ∈ extents, extent.Encloses number → _))

theorem selected_append_iff {others : List Extent} {line : Nat} :
    Selected (extents ++ others) line ↔ Selected extents line ∧ Selected others line :=
  List.forall_mem_append

theorem selected_cons_iff {extent : Extent} {line : Nat} :
    Selected (extent :: extents) line ↔
      (extent.Encloses line → extent.Selects line) ∧ Selected extents line :=
  List.forall_mem_cons

/-- Groups have nothing to say about lines before and behind them. -/
theorem Nested.selected_of_outside (nested : Nested version number all extents) {line : Nat}
    (outside : line < number ∨ number + all.length ≤ line) : Selected extents line := by
  rintro extent member ⟨behind, before⟩
  have within := nested.bounds extent member
  omega

/-- The lines with an empty one in place of each that is a directive or is not selected.
All are empty if nothing around them is kept. -/
def selection (keeps : Bool) (extents : List Extent) (number : Nat) (all : List (List Char)) :
    List (List Char) :=
  (all.zipIdx number).map fun (line, number) =>
    if directive? line = none ∧ keeps = true ∧ Selected extents number then line else []

theorem selection_congr {keeps inner : Bool} {others : List Extent}
    (same : ∀ line, number ≤ line → line < number + all.length →
      (keeps = true ∧ Selected extents line ↔ inner = true ∧ Selected others line)) :
    selection keeps extents number all = selection inner others number all := by
  refine List.map_congr_left fun ⟨line, place⟩ member => ?_
  rcases List.mem_zipIdx member with ⟨behind, before, _⟩
  simp only [same place behind before]

theorem selection_append (keeps : Bool) (first second : List (List Char)) :
    selection keeps extents number (first ++ second) =
      selection keeps extents number first ++
        selection keeps extents (number + first.length) second := by
  simp only [selection, List.zipIdx_append, List.map_append]

theorem selection_cons_of_directive {keeps : Bool} {line : List Char}
    {directive : List Char × List Char} (isDirective : directive? line = some directive)
    (rest : List (List Char)) :
    selection keeps extents number (line :: rest) =
      [] :: selection keeps extents (number + 1) rest := by
  simp [selection, List.zipIdx_cons, isDirective]

end

/-! ## Steps -/

variable {path : Path} {state next : Conditional} {directive condition : List Char}

/-- The state in the part of the group that `@else` leads to. -/
def divided (state : Conditional) (holds : Bool) : Conditional :=
  { state with groups := ⟨state.keeps, holds, true, state.keeps && !holds⟩ :: state.groups }

/-- A directive becomes an empty line, and what follows is filtered from the state that it
leads to. -/
theorem filterLines_cons_of_directive {number : Nat} {final : Conditional} {line : List Char}
    {rest kept : List (List Char)} (isDirective : directive? line = some (directive, condition))
    (processed : process directive condition state = .ok () next)
    (filtered : filterLines path (number + 1) next rest = (final, .ok kept)) :
    filterLines path number state (line :: rest) = (final, .ok ([] :: kept)) := by
  rw [filterLines, isDirective]
  simp only [processed, filtered]
  rfl

theorem filterLines_append_of_ok {number : Nat} {middle final : Conditional}
    {first second kept others : List (List Char)}
    (filteredFirst : filterLines path number state first = (middle, .ok kept))
    (filteredSecond : filterLines path (number + first.length) middle second =
      (final, .ok others)) :
    filterLines path number state (first ++ second) = (final, .ok (kept ++ others)) := by
  rw [filterLines_append filteredFirst, filteredSecond]
  rfl

theorem filterLines_of_opens {version number : Nat} {final : Conditional} {line : List Char}
    {holds : Bool} {rest kept : List (List Char)} (opens : Opens version line holds)
    (sameVersion : state.version = version)
    (filtered : filterLines path (number + 1) (state.opened holds) rest = (final, .ok kept)) :
    filterLines path number state (line :: rest) = (final, .ok ([] :: kept)) := by
  rcases opens with ⟨condition, isDirective, evaluated⟩
  refine filterLines_cons_of_directive isDirective (process_eq_ok_iff.mpr (.inl ⟨rfl, holds, ?_⟩))
    filtered
  rw [sameVersion]
  exact ⟨evaluated, rfl⟩

theorem filterLines_of_divides {number : Nat} {final : Conditional} {line : List Char}
    {holds : Bool} {rest kept : List (List Char)} (divides : IsDirective "@else" line)
    (filtered : filterLines path (number + 1) (state.divided holds) rest = (final, .ok kept)) :
    filterLines path number (state.opened holds) (line :: rest) = (final, .ok ([] :: kept)) := by
  rcases divides with ⟨condition, isDirective⟩
  exact filterLines_cons_of_directive isDirective
    (process_eq_ok_iff.mpr (.inr (.inl ⟨rfl, _, _, rfl, rfl, rfl⟩))) filtered

theorem filterLines_of_closes {number : Nat} {line : List Char} {group : Group}
    (closes : IsDirective "@endif" line) :
    filterLines path number { state with groups := group :: state.groups } [line] =
      (state, .ok [[]]) := by
  rcases closes with ⟨condition, isDirective⟩
  exact filterLines_cons_of_directive isDirective
    (process_eq_ok_iff.mpr (.inr (.inr ⟨rfl, _, _, rfl, rfl⟩))) rfl

/-! ## What groups select is kept -/

section

variable {version number : Nat} {extents others : List Extent}

/-- The lines of two parts are selected by the groups of their own part. -/
theorem Nested.selection_append {first second : List (List Char)}
    (nestedFirst : Nested version number first extents)
    (nestedSecond : Nested version (number + first.length) second others) (keeps : Bool) :
    selection keeps (extents ++ others) number (first ++ second) =
      selection keeps extents number first ++
        selection keeps others (number + first.length) second := by
  rw [Conditional.selection_append]
  congr 1
  · refine selection_congr fun line _ before => ?_
    simp only [selected_append_iff, nestedSecond.selected_of_outside (.inl before), and_true]
  · refine selection_congr fun line behind _ => ?_
    simp only [selected_append_iff, nestedFirst.selected_of_outside (.inr behind), true_and]

/-- In a group without `@else` the lines are selected if the condition holds. -/
theorem selection_group {keeps holds : Bool} {opening closing : List Char}
    {body : List (List Char)} (opens : Opens version opening holds)
    (closes : IsDirective "@endif" closing) :
    selection keeps (⟨number, none, number + 1 + body.length, holds⟩ :: extents) number
        (opening :: (body ++ [closing])) =
      [] :: (selection (keeps && holds) extents (number + 1) body ++ [[]]) := by
  rcases opens with ⟨_, isOpening, _⟩
  rcases closes with ⟨_, isClosing⟩
  rw [selection_cons_of_directive isOpening, Conditional.selection_append,
    selection_cons_of_directive isClosing]
  congr 2
  refine selection_congr fun line behind before => ?_
  have encloses : Extent.Encloses ⟨number, none, number + 1 + body.length, holds⟩ line :=
    ⟨behind, before⟩
  simp [selected_cons_iff, encloses, Extent.Selects, and_assoc]

/-- In a group with `@else` the lines before it are selected if the condition holds, and
the lines behind it if not. -/
theorem selection_divided {keeps holds : Bool} {opening divider closing : List Char}
    {body other : List (List Char)} (opens : Opens version opening holds)
    (nested : Nested version (number + 1) body extents) (divides : IsDirective "@else" divider)
    (nestedOther : Nested version (number + 1 + body.length + 1) other others)
    (closes : IsDirective "@endif" closing) :
    selection keeps
        (⟨number, some (number + 1 + body.length), number + 1 + body.length + 1 + other.length,
          holds⟩ :: (extents ++ others)) number
        (opening :: (body ++ divider :: (other ++ [closing]))) =
      [] :: (selection (keeps && holds) extents (number + 1) body ++
        [] :: (selection (keeps && !holds) others (number + 1 + body.length + 1) other ++
          [[]])) := by
  rcases opens with ⟨_, isOpening, _⟩
  rcases divides with ⟨_, isDivider⟩
  rcases closes with ⟨_, isClosing⟩
  rw [selection_cons_of_directive isOpening, Conditional.selection_append,
    selection_cons_of_directive isDivider, Conditional.selection_append,
    selection_cons_of_directive isClosing]
  congr 2
  · refine selection_congr fun line behind before => ?_
    have encloses : Extent.Encloses ⟨number, some (number + 1 + body.length),
        number + 1 + body.length + 1 + other.length, holds⟩ line := ⟨behind, by simp only; omega⟩
    have selects : Extent.Selects ⟨number, some (number + 1 + body.length),
        number + 1 + body.length + 1 + other.length, holds⟩ line ↔ holds = true := by
      cases holds <;> simp [Extent.Selects] <;> omega
    have apart : Selected others line := nestedOther.selected_of_outside (.inl (by omega))
    simp [selected_cons_iff, selected_append_iff, encloses, selects, apart, and_assoc]
  · congr 2
    refine selection_congr fun line behind before => ?_
    have encloses : Extent.Encloses ⟨number, some (number + 1 + body.length),
        number + 1 + body.length + 1 + other.length, holds⟩ line := ⟨by simp only; omega, before⟩
    have selects : Extent.Selects ⟨number, some (number + 1 + body.length),
        number + 1 + body.length + 1 + other.length, holds⟩ line ↔ holds = false := by
      cases holds <;> simp [Extent.Selects] <;> omega
    have apart : Selected extents line := nested.selected_of_outside (.inr (by omega))
    simp [selected_cons_iff, selected_append_iff, encloses, selects, apart, and_assoc]

/-- Nested lines lead back to the same state, and what their groups select is kept. -/
theorem filterLines_of_nested {all : List (List Char)} (nested : Nested version number all extents)
    (sameVersion : state.version = version) :
    filterLines path number state all =
      (state, .ok (selection state.keeps extents number all)) := by
  induction nested generalizing state with
  | nil => rfl
  | line noDirective =>
      rw [filterLines, noDirective]
      simp [filterLines, selection, noDirective, Selected, Except.map]
  | append nestedFirst nestedSecond filteredFirst filteredSecond =>
      rw [nestedFirst.selection_append nestedSecond]
      exact filterLines_append_of_ok (filteredFirst sameVersion) (filteredSecond sameVersion)
  | group opens _ closes filtered =>
      rw [selection_group opens closes]
      refine filterLines_of_opens opens sameVersion ?_
      exact filterLines_append_of_ok (filtered sameVersion) (filterLines_of_closes closes)
  | divided opens nested divides nestedOther closes filtered filteredOther =>
      rw [selection_divided opens nested divides nestedOther closes]
      refine filterLines_of_opens opens sameVersion ?_
      refine filterLines_append_of_ok (filtered sameVersion) (filterLines_of_divides divides ?_)
      exact filterLines_append_of_ok (filteredOther sameVersion) (filterLines_of_closes closes)

end

/-! ## The stack describes the nesting -/

/-- The lines that lead from the start to a stack of groups, each given by whether its
`@else` has been passed.  Behind the last directive of each group that is open, the lines
up to the next such directive are nested. -/
inductive Reached (version : Nat) : List (List Char) → List Bool → Prop where
  | outside {all : List (List Char)} {extents : List Extent}
      (nested : Nested version 1 all extents) : Reached version all []
  | inside {before body : List (List Char)} {opening : List Char} {holds : Bool}
      {stack : List Bool} {extents : List Extent} (reached : Reached version before stack)
      (opens : Opens version opening holds)
      (nested : Nested version (1 + before.length + 1) body extents) :
      Reached version (before ++ opening :: body) (false :: stack)
  | behindElse {before body other : List (List Char)} {opening divider : List Char}
      {holds : Bool} {stack : List Bool} {extents others : List Extent}
      (reached : Reached version before stack) (opens : Opens version opening holds)
      (nested : Nested version (1 + before.length + 1) body extents)
      (divides : IsDirective "@else" divider)
      (nestedOther : Nested version (1 + before.length + 1 + body.length + 1) other others) :
      Reached version (before ++ opening :: (body ++ divider :: other)) (true :: stack)

namespace Reached

variable {version : Nat} {before : List (List Char)} {stack : List Bool}

/-- Nested lines change nothing. -/
theorem append {all : List (List Char)} {extents : List Extent}
    (reached : Reached version before stack)
    (nested : Nested version (1 + before.length) all extents) :
    Reached version (before ++ all) stack := by
  cases reached with
  | outside nestedBefore => exact .outside (.append nestedBefore nested)
  | @inside outer body opening _ _ _ reached opens nestedBody =>
      have place : 1 + (outer ++ opening :: body).length = 1 + outer.length + 1 + body.length := by
        simp only [List.length_append, List.length_cons]
        omega
      rw [place] at nested
      rw [List.append_assoc, List.cons_append]
      exact .inside reached opens (.append nestedBody nested)
  | @behindElse outer body other opening divider _ _ _ _ reached opens nestedBody divides
      nestedOther =>
      have place : 1 + (outer ++ opening :: (body ++ divider :: other)).length =
          1 + outer.length + 1 + body.length + 1 + other.length := by
        simp only [List.length_append, List.length_cons]
        omega
      rw [place] at nested
      rw [List.append_assoc, List.cons_append, List.append_assoc, List.cons_append]
      exact .behindElse reached opens nestedBody divides (.append nestedOther nested)

/-- Closing the innermost group leads back to the one around it. -/
theorem close {passed : Bool} {line : List Char}
    (reached : Reached version before (passed :: stack))
    (closes : IsDirective "@endif" line) : Reached version (before ++ [line]) stack := by
  cases reached with
  | inside reached opens nested =>
      rw [List.append_assoc, List.cons_append]
      exact reached.append (.group opens nested closes)
  | behindElse reached opens nested divides nestedOther =>
      rw [List.append_assoc, List.cons_append, List.append_assoc, List.cons_append]
      exact reached.append (.divided opens nested divides nestedOther closes)

theorem divide {line : List Char} (reached : Reached version before (false :: stack))
    (divides : IsDirective "@else" line) : Reached version (before ++ [line]) (true :: stack) := by
  cases reached with
  | inside reached opens nested =>
      rw [List.append_assoc, List.cons_append]
      exact .behindElse reached opens nested divides (.nil _)

/-- A directive leads from one stack to the next. -/
theorem process {state next : Conditional} {line directive condition : List Char}
    (reached : Reached version before (state.groups.map Group.seenElse))
    (sameVersion : state.version = version)
    (isDirective : directive? line = some (directive, condition))
    (processed : process directive condition state = .ok () next) :
    Reached version (before ++ [line]) (next.groups.map Group.seenElse) := by
  rcases process_eq_ok_iff.mp processed with
    ⟨rfl, holds, evaluated, rfl⟩ | ⟨rfl, group, outer, isStack, unseen, rfl⟩ |
      ⟨rfl, group, outer, isStack, rfl⟩
  · rw [sameVersion] at evaluated
    exact .inside reached ⟨condition, isDirective, evaluated⟩ (.nil _)
  · rw [isStack, List.map_cons, unseen] at reached
    exact reached.divide ⟨condition, isDirective⟩
  · rw [isStack, List.map_cons] at reached
    exact reached.close ⟨condition, isDirective⟩

/-- So do all lines that are passed. -/
theorem filterLines {path : Path} {number : Nat} {state final : Conditional}
    {all kept : List (List Char)}
    (reached : Reached version before (state.groups.map Group.seenElse))
    (sameVersion : state.version = version)
    (filtered : filterLines path number state all = (final, .ok kept)) :
    Reached version (before ++ all) (final.groups.map Group.seenElse) := by
  fun_induction Conditional.filterLines path number state all generalizing before kept with
  | case1 =>
      cases filtered
      rwa [List.append_nil]
  | case2 => cases filtered
  | case3 _ state line rest _ _ isDirective _ next processed _ result filteredRest ih =>
      cases result with
      | error => cases filtered
      | ok others =>
          cases filtered
          rw [List.append_cons]
          refine ih (reached.process sameVersion isDirective processed) ?_ filteredRest
          rw [version_of_process processed, sameVersion]
  | case4 _ state line rest noDirective _ result filteredRest ih =>
      cases result with
      | error => cases filtered
      | ok others =>
          cases filtered
          rw [List.append_cons]
          exact ih (reached.append (.line noDirective)) sameVersion filteredRest

end Reached

/-- Lines that lead to a state without groups are nested. -/
theorem exists_nested_of_filterLines {path : Path} {version : Nat} {all kept : List (List Char)}
    (filtered : filterLines path 1 (start version) all = (start version, .ok kept)) :
    ∃ extents, Nested version 1 all extents := by
  have reached : Reached version [] ((start version).groups.map Group.seenElse) :=
    .outside (.nil 1)
  cases reached.filterLines rfl filtered with
  | outside nested => exact ⟨_, nested⟩

/-! ## Sources -/

/-- The meaning of conditional parts.  A source is filtered exactly if its directives form
groups that nest, each with at most one `@else` and with a condition that can be evaluated,
also where nothing is kept.  Then each line gives one line of the text that is left: the
line itself, if it is no directive and is in the selected part of every group around it,
and an empty line otherwise. -/
theorem filter_eq_ok_iff_nested (version : Nat) (path : Path) (source text : List Char) :
    (((start version).filter path source).2 = .ok text ↔
      ∃ extents, Nested version 1 (lines source) extents ∧
        text = ((lines source).zipIdx 1).flatMap fun (line, number) =>
          (if directive? line = none ∧ Selected extents number then line else []) ++ ['\n']) ∧
    (((start version).filter path source).2 = .ok text →
      text.count '\n' = (lines source).length) := by
  have ofNested : ∀ extents, Nested version 1 (lines source) extents →
      ((start version).filter path source).2 =
        .ok (((lines source).zipIdx 1).flatMap fun (line, number) =>
          (if directive? line = none ∧ Selected extents number then line else []) ++ ['\n']) := by
    intro extents nested
    have filtered : filterLines path 1 (start version) (lines source) =
        (start version, .ok (selection true extents 1 (lines source))) :=
      filterLines_of_nested nested rfl
    simp only [filter, filtered, selection, List.flatMap_map, true_and]
    rfl
  refine ⟨⟨fun filtered => ?_, ?_⟩, count_of_filter_eq_ok⟩
  · rcases exists_filterLines_of_filter_eq_ok filtered with ⟨kept, filteredLines, _⟩
    rcases exists_nested_of_filterLines filteredLines with ⟨extents, nested⟩
    rw [ofNested extents nested] at filtered
    exact ⟨extents, nested, (Except.ok.inj filtered).symm⟩
  · rintro ⟨extents, nested, rfl⟩
    exact ofNested extents nested

/-- A group inside the part behind `@else`, which the outer condition does not select. -/
example : ((start 5).filter ⟨"x.evt"⟩
    "@if HOST_VERSION < 6\na\n@else\n@if ZEEK_VERSION\nb\n@endif\n@endif\nc".toList).2 =
      .ok "\na\n\n\n\n\n\nc\n".toList := by
  decide +kernel

end Conditional

end AnalyzerGlue.Evt
