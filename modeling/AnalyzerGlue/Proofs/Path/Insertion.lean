import AnalyzerGlue.Path

/-!
# Adding paths to sets of paths

Paths are compared component by component, and this is an order up to the spelling of
paths.  Hence adding a path that is there already changes nothing, in whatever order other
paths were added meanwhile.
-/

namespace AnalyzerGlue.Path

open Std

/-! ## Order -/

/-- A comparison of images is as good as that of what they are images of. -/
theorem transCmp_comap {α β : Type} {cmp : β → β → Ordering} [TransCmp cmp] (image : α → β) :
    TransCmp fun left right => cmp (image left) (image right) where
  eq_swap := OrientedCmp.eq_swap
  isLE_trans := TransCmp.isLE_trans

theorem compareText_eq : compareText = List.compareLex (compareOn Char.toNat) := by
  funext left right
  induction left generalizing right with
  | nil => cases right <;> rfl
  | cons c left ih =>
      cases right with
      | nil => rfl
      | cons d right =>
          rw [compareText, ih, List.compareLex_cons_cons]
          rfl

instance : TransCmp compareText := by
  rw [compareText_eq]
  infer_instance

/-- The text of a component that has one. -/
def Component.name : Component → List Char
  | .normal name => name
  | _ => []

theorem Component.order_eq :
    Component.order = compareLex (compareOn Component.rank)
      fun left right => compareText left.name right.name := by
  funext left right
  cases left <;> cases right <;> rfl

instance : TransCmp Component.order := by
  have byName : TransCmp fun left right : Component => compareText left.name right.name :=
    transCmp_comap Component.name
  rw [Component.order_eq]
  infer_instance

theorem compareComponents_eq : compareComponents = List.compareLex Component.order := by
  funext left right
  induction left generalizing right with
  | nil => cases right <;> rfl
  | cons first left ih =>
      cases right with
      | nil => rfl
      | cons second right => rw [compareComponents, ih, List.compareLex_cons_cons]

instance : TransCmp Path.order := by
  have byComponents : TransCmp compareComponents := by
    rw [compareComponents_eq]
    infer_instance
  exact transCmp_comap Path.components

/-! ## Insertion -/

/-- A path that has been added is there. -/
theorem insert_insert_self (path : Path) (paths : List Path) :
    insert path (insert path paths) = insert path paths := by
  induction paths with
  | nil => simp [insert, ReflCmp.compare_self]
  | cons first rest ih =>
      cases place : path.order first with
      | lt => simp [insert, place, ReflCmp.compare_self]
      | eq => simp [insert, place]
      | gt => simp [insert, place, ih]

/-- A path that is there stays when another one is added. -/
theorem insert_insert_of_insert_eq {path : Path} {paths : List Path}
    (isThere : insert path paths = paths) (other : Path) :
    insert path (insert other paths) = insert other paths := by
  -- The list need not be in order: what matters is that a path which is added before the
  -- place of the first one is also before that one, so that it is passed over.
  induction paths with
  | nil => cases isThere
  | cons first rest ih =>
      cases place : path.order first with
      | lt =>
          have isLonger := congrArg List.length isThere
          simp [insert, place] at isLonger
      | eq =>
          cases otherPlace : other.order first with
          | lt =>
              have behind : path.order other = .gt :=
                OrientedCmp.gt_iff_lt.mpr (TransCmp.lt_of_lt_of_eq otherPlace
                  (OrientedCmp.eq_comm.mp place))
              simp [insert, otherPlace, behind, place]
          | eq => simp [insert, otherPlace, place]
          | gt => simp [insert, otherPlace, place]
      | gt =>
          have isThereBehind : insert path rest = rest := by
            simpa [insert, place] using isThere
          cases otherPlace : other.order first with
          | lt =>
              have behind : path.order other = .gt :=
                TransCmp.gt_trans place (OrientedCmp.gt_iff_lt.mpr otherPlace)
              simp [insert, otherPlace, behind, place, isThereBehind]
          | eq => simp [insert, otherPlace, place, isThereBehind]
          | gt => simp [insert, otherPlace, place, ih isThereBehind]

/-! ## Membership -/

/-- No path that is there is lost. -/
theorem mem_insert_of_mem {path other : Path} {paths : List Path} (member : other ∈ paths) :
    other ∈ insert path paths := by
  induction paths with
  | nil => cases member
  | cons first rest ih =>
      rw [insert]
      split
      · exact List.mem_cons_of_mem path member
      · exact member
      · rcases List.mem_cons.mp member with rfl | isRest
        · exact List.mem_cons_self
        · exact List.mem_cons_of_mem first (ih isRest)

/-- No path is there but the one that has been added and those that were there. -/
theorem mem_of_mem_insert {path other : Path} {paths : List Path}
    (member : other ∈ insert path paths) : other = path ∨ other ∈ paths := by
  induction paths with
  | nil => exact .inl (List.mem_singleton.mp member)
  | cons first rest ih =>
      rw [insert] at member
      split at member
      · exact List.mem_cons.mp member
      · exact .inr member
      · rcases List.mem_cons.mp member with rfl | isRest
        · exact .inr List.mem_cons_self
        · exact (ih isRest).imp_right (List.mem_cons_of_mem first)

/-- Whether a path is in a set of paths, in whatever spelling. -/
def IsIn (path : Path) (paths : List Path) : Prop :=
  ∃ other ∈ paths, path.order other = .eq

/-- A path that has been added is in the set. -/
theorem isIn_insert (path : Path) (paths : List Path) : path.IsIn (insert path paths) := by
  induction paths with
  | nil => exact ⟨path, List.mem_singleton_self path, ReflCmp.compare_self⟩
  | cons first rest ih =>
      rw [insert]
      split
      · exact ⟨path, List.mem_cons_self, ReflCmp.compare_self⟩
      · rename_i same
        exact ⟨first, List.mem_cons_self, same⟩
      · rcases ih with ⟨other, member, same⟩
        exact ⟨other, List.mem_cons_of_mem first member, same⟩

end AnalyzerGlue.Path
