import AnalyzerGlue.Proofs.Evt.Concatenation

/-!
# Sequences of directives

Directives are carried out one after the other on a state that lives on,
whether they succeed or not.  A directive that fails changes nothing, so the
state is a matter of those that succeed: each `@if` opens a group, `@else` goes
on to the other part of the innermost group, and `@endif` closes it.

A group does not look at the groups around it again.  What it has stored of
them when it was opened stays right, because they cannot change before it is
closed; hence the innermost group tells whether all groups are in the part that
their conditions select.
-/

namespace AnalyzerGlue.Evt

/-! ## Groups that are consistent with each other -/

/-- Whether the next line is kept, given the groups that are open. -/
def Group.keptIn : List Group → Bool
  | [] => true
  | group :: _ => group.kept

theorem Conditional.keeps_eq (state : Conditional) : state.keeps = Group.keptIn state.groups := by
  unfold keeps Group.keptIn
  cases state.groups with
  | nil => rfl
  | cons group outer => rfl

/-- The stacks in which each group has stored what the groups around it say, and
what follows from that for its own lines. -/
inductive Consistent : List Group → Prop where
  | nil : Consistent []
  | cons (holds seenElse : Bool) {outer : List Group} (around : Consistent outer) :
      Consistent (⟨Group.keptIn outer, holds, seenElse,
        Group.keptIn outer && (holds != seenElse)⟩ :: outer)

/-- In a consistent stack the innermost group speaks for all. -/
theorem Consistent.keptIn_iff {groups : List Group} (consistent : Consistent groups) :
    Group.keptIn groups = true ↔ ∀ group ∈ groups, group.holds ≠ group.seenElse := by
  induction consistent with
  | nil => simp [Group.keptIn]
  | cons holds seenElse around ih =>
      rw [List.forall_mem_cons, ← ih, and_comm, ← bne_iff_ne, ← Bool.and_eq_true]
      rfl

namespace Conditional

/-! ## Calls -/

/-- The texts that a directive is called with. -/
structure Call where
  directive : List Char
  condition : List Char

/-- The state behind calls, whether they fail or not. -/
def behind (state : Conditional) : List Call → Conditional
  | [] => state
  | call :: calls =>
      match process call.directive call.condition state with
      | .ok _ next => next.behind calls
      | .error _ left => left.behind calls

/-- The calls that succeed. -/
def successes (state : Conditional) : List Call → List Call
  | [] => []
  | call :: calls =>
      match process call.directive call.condition state with
      | .ok _ next => call :: next.successes calls
      | .error _ left => left.successes calls

/-! ## What calls have opened -/

/-- A group as it is written: its condition, and whether `@else` has followed. -/
structure Frame where
  condition : List Char
  seenElse : Bool

/-- Whether a frame is in the part that its condition selects. -/
def Frame.IsSelected (version : Nat) (frame : Frame) : Prop :=
  evaluate version frame.condition = .ok true ∧ frame.seenElse = false ∨
    evaluate version frame.condition = .ok false ∧ frame.seenElse = true

/-- The frames that are open behind one more call, the innermost first. -/
def Frame.next (frames : List Frame) (call : Call) : List Frame :=
  if call.directive = "@if".toList then ⟨call.condition, false⟩ :: frames
  else if call.directive = "@else".toList then
    frames.modifyHead fun frame => { frame with seenElse := true }
  else if call.directive = "@endif".toList then frames.tail
  else frames

/-- The frames that are open behind some calls. -/
def framesOf (calls : List Call) : List Frame :=
  calls.foldl Frame.next []

/-- Whether a group has stored what a frame stands for. -/
def Shows (version : Nat) (group : Group) (frame : Frame) : Prop :=
  evaluate version frame.condition = .ok group.holds ∧ frame.seenElse = group.seenElse

theorem Shows.isSelected_iff {version : Nat} {group : Group} {frame : Frame}
    (stored : Shows version group frame) :
    frame.IsSelected version ↔ group.holds ≠ group.seenElse := by
  unfold Frame.IsSelected
  rw [stored.1, stored.2]
  cases group.holds <;> cases group.seenElse <;> simp

theorem forall_isSelected_iff {version : Nat} {groups : List Group} {frames : List Frame}
    (stored : List.Forall₂ (Shows version) groups frames) :
    (∀ frame ∈ frames, frame.IsSelected version) ↔
      ∀ group ∈ groups, group.holds ≠ group.seenElse := by
  induction stored with
  | nil => simp
  | cons first others ih =>
      rw [List.forall_mem_cons, List.forall_mem_cons, first.isSelected_iff, ih]

theorem framesOf_concat (calls : List Call) (call : Call) :
    framesOf (calls ++ [call]) = Frame.next (framesOf calls) call := by
  rw [framesOf, List.foldl_append]
  rfl

/-- How often a directive has been called. -/
def callsOf (directive : String) (calls : List Call) : Nat :=
  calls.countP fun call => call.directive == directive.toList

theorem callsOf_concat_self (directive : String) (calls : List Call) (condition : List Char) :
    callsOf directive (calls ++ [⟨directive.toList, condition⟩]) = callsOf directive calls + 1 := by
  simp [callsOf, List.countP_append]

theorem callsOf_concat_of_ne {directive : String} {call : Call} (calls : List Call)
    (differs : call.directive ≠ directive.toList) :
    callsOf directive (calls ++ [call]) = callsOf directive calls := by
  simp [callsOf, List.countP_append, differs]

/-- What the state has to do with the calls that have succeeded. -/
structure Tracks (version : Nat) (calls : List Call) (state : Conditional) : Prop where
  version_eq : state.version = version
  stored : List.Forall₂ (Shows version) state.groups (framesOf calls)
  consistent : Consistent state.groups
  depth : state.groups.length + callsOf "@endif" calls = callsOf "@if" calls

namespace Tracks

variable {version : Nat} {calls : List Call} {state next : Conditional} {condition : List Char}

/-! ## One call -/

theorem opening {holds : Bool} (tracks : Tracks version calls state)
    (evaluated : evaluate state.version condition = .ok holds) :
    Tracks version (calls ++ [⟨"@if".toList, condition⟩]) (state.opened holds) := by
  rw [tracks.version_eq] at evaluated
  constructor
  · exact tracks.version_eq
  · rw [framesOf_concat]
    exact .cons ⟨evaluated, rfl⟩ tracks.stored
  · have consistent := Consistent.cons holds false tracks.consistent
    rwa [Bool.bne_false, ← keeps_eq] at consistent
  · have depth := tracks.depth
    rw [callsOf_concat_self, callsOf_concat_of_ne calls (by simp), ← depth]
    simp only [opened, List.length_cons]
    omega

theorem dividing {group : Group} {outer : List Group} (tracks : Tracks version calls state)
    (isStack : state.groups = group :: outer) (unseen : group.seenElse = false) :
    Tracks version (calls ++ [⟨"@else".toList, condition⟩])
      { state with groups :=
        { group with seenElse := true, kept := group.outer && !group.holds } :: outer } := by
  rcases tracks with ⟨isVersion, stored, consistent, depth⟩
  rw [isStack] at stored consistent depth
  constructor
  · exact isVersion
  · rw [framesOf_concat]
    cases isFrames : framesOf calls with
    | nil =>
        rw [isFrames] at stored
        cases stored
    | cons frame frames =>
        rw [isFrames] at stored
        cases stored with
        | cons first others => exact .cons ⟨first.1, rfl⟩ others
  · cases consistent with
    | cons holds seenElse around =>
        have divided := Consistent.cons holds true around
        rwa [Bool.bne_true] at divided
  · rw [callsOf_concat_of_ne calls (by simp), callsOf_concat_of_ne calls (by simp)]
    exact depth

theorem closing {group : Group} {outer : List Group} (tracks : Tracks version calls state)
    (isStack : state.groups = group :: outer) :
    Tracks version (calls ++ [⟨"@endif".toList, condition⟩]) { state with groups := outer } := by
  rcases tracks with ⟨isVersion, stored, consistent, depth⟩
  rw [isStack] at stored consistent depth
  constructor
  · exact isVersion
  · rw [framesOf_concat]
    cases isFrames : framesOf calls with
    | nil =>
        rw [isFrames] at stored
        cases stored
    | cons frame frames =>
        rw [isFrames] at stored
        cases stored with
        | cons first others => exact others
  · cases consistent with
    | cons holds seenElse around => exact around
  · rw [callsOf_concat_self, callsOf_concat_of_ne calls (by simp), ← depth]
    simp only [List.length_cons]
    omega

theorem step {call : Call} (tracks : Tracks version calls state)
    (processed : process call.directive call.condition state = .ok () next) :
    Tracks version (calls ++ [call]) next := by
  rcases call with ⟨directive, condition⟩
  rcases process_eq_ok_iff.mp processed with
    ⟨isIf, holds, evaluated, rfl⟩ | ⟨isElse, group, outer, isStack, unseen, rfl⟩ |
      ⟨isEnd, group, outer, isStack, rfl⟩
  · cases isIf
    exact tracks.opening evaluated
  · cases isElse
    exact tracks.dividing isStack unseen
  · cases isEnd
    exact tracks.closing isStack

/-! ## All calls -/

theorem run {done : List Call} (tracks : Tracks version done state) (calls : List Call) :
    Tracks version (done ++ state.successes calls) (state.behind calls) := by
  induction calls generalizing done state with
  | nil => rwa [successes, behind, List.append_nil]
  | cons call calls ih =>
      rw [successes, behind]
      cases called : process call.directive call.condition state with
      | ok _ next =>
          rw [List.append_cons]
          exact ih (tracks.step called)
      | error error left =>
          rw [(of_process_eq_error called).1]
          exact ih tracks

theorem keeps_iff (tracks : Tracks version calls state) :
    state.keeps = true ↔ ∀ frame ∈ framesOf calls, frame.IsSelected version := by
  rw [keeps_eq, tracks.consistent.keptIn_iff, forall_isSelected_iff tracks.stored]

end Tracks

/-- What a sequence of calls comes to, from a state with no group open.  A
further call that fails leaves the state as it is.  The groups that are open are
those that the successful calls have left open, as many as there were more of
`@if` than of `@endif`, and they have stored the values of the conditions.  The
next line is kept exactly if each of them is in the part that its condition
selects. -/
theorem behind_calls (version : Nat) (calls : List Call) :
    let state := (start version).behind calls
    let done := (start version).successes calls
    (∀ directive condition error left,
      process directive condition state = .error error left → left = state) ∧
    (state.groups.length : Int) = callsOf "@if" done - callsOf "@endif" done ∧
    List.Forall₂ (Shows version) state.groups (framesOf done) ∧
    (state.keeps = true ↔ ∀ frame ∈ framesOf done, frame.IsSelected version) := by
  intro state done
  have tracks : Tracks version done state := by
    have fresh : Tracks version [] (start version) := ⟨rfl, .nil, .nil, rfl⟩
    exact fresh.run calls
  constructor
  · intro directive condition error left failed
    exact (of_process_eq_error failed).1
  constructor
  · have depth := tracks.depth
    omega
  constructor
  · exact tracks.stored
  · exact tracks.keeps_iff

/-- The second `@else` fails and leaves the group in its other part. -/
theorem behind_calls_second_else :
    let state := (start 5).behind [⟨"@if".toList, "HOST_VERSION < 6".toList⟩, ⟨"@else".toList, []⟩]
    let left : Conditional := ⟨5, [⟨true, true, true, false⟩]⟩
    process "@else".toList [] state = .error .duplicateElse left ∧ left = state := by
  have failed : process "@else".toList []
      ((start 5).behind [⟨"@if".toList, "HOST_VERSION < 6".toList⟩, ⟨"@else".toList, []⟩]) =
        .error .duplicateElse ⟨5, [⟨true, true, true, false⟩]⟩ := rfl
  intro state left
  exact ⟨failed, (behind_calls 5 _).1 _ _ _ _ failed⟩

end Conditional

end AnalyzerGlue.Evt
