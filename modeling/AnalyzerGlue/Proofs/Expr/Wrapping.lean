import Mathlib.Control.Monad.Basic
import AnalyzerGlue.Expr.Deferral
import AnalyzerGlue.Proofs.Expr.Exactness
import AnalyzerGlue.Proofs.Expr.Parts

/-!
# Deferring wraps and does nothing else

`Expr.defer` goes through all kinds of expressions.  What it does at one node does not depend
on the kind: the parts of the node are deferred, and the node that results is wrapped if it
is an access to an optional member.  `defer_eq` says this, and the rest is by induction on
parts.

Taking the wrappers away gives back the expression.  The wrappers are exactly around the
accesses to optional members.
-/

namespace AnalyzerGlue.Expr

/-! ## Accesses and wrappers -/

/-- Whether an expression is an access to an optional member. -/
def IsTryMember : Expr → Prop
  | .apply .tryMember _ _ => True
  | _ => False

/-- Whether an expression is a deferred one. -/
def IsDeferred : Expr → Prop
  | .deferred _ _ _ => True
  | _ => False

theorem isDeferred_mapParts_iff {change : Expr → Expr} {tree : Expr} :
    (tree.mapParts change).IsDeferred ↔ tree.IsDeferred := by
  cases tree <;> rfl

/-- The expression in a deferred one if it is an access to an optional member. -/
def wrapped (catching : Bool) : Expr → Expr
  | .apply operator operands location => deferOperator catching operator operands location
  | tree => tree

theorem wrapped_of_isTryMember {tree : Expr} (access : tree.IsTryMember) (catching : Bool) :
    tree.wrapped catching = .deferred tree catching tree.location := by
  unfold IsTryMember at access
  split at access
  · rfl
  · cases access

theorem wrapped_of_not_isTryMember {tree : Expr} (other : ¬ tree.IsTryMember) (catching : Bool) :
    tree.wrapped catching = tree := by
  cases tree with
  | apply operator operands location =>
      rw [wrapped, deferOperator, if_neg]
      rintro rfl
      exact other trivial
  | _ => rfl

/-- Deferring an expression defers its parts and wraps what results. -/
theorem defer_eq (catching : Bool) (tree : Expr) :
    tree.defer catching = (tree.mapParts (defer catching)).wrapped catching := by
  cases tree <;> simp only [defer, mapParts, wrapped, deferAll_eq_map]

/-- No access to an optional member is left outside of a deferred expression. -/
theorem not_isTryMember_defer (catching : Bool) (tree : Expr) :
    ¬ (tree.defer catching).IsTryMember := by
  rw [defer_eq]
  by_cases access : (tree.mapParts (defer catching)).IsTryMember
  · rw [wrapped_of_isTryMember access]
    exact id
  · rwa [wrapped_of_not_isTryMember access]

/-! ## Taking wrappers away -/

mutual

/-- The expression with each deferred node, at every depth, replaced by what is inside. -/
def undeferred : Expr → Expr
  | .atom value location => .atom value location
  | .tuple items location => .tuple (undeferredOf items) location
  | .vector items location => .vector (undeferredOf items) location
  | .call callee arguments location => .call callee (undeferredOf arguments) location
  | .memberCall receiver method arguments location =>
      .memberCall receiver.undeferred method (undeferredOf arguments) location
  | .apply operator operands location => .apply operator (undeferredOf operands) location
  | .ternary condition yes no location =>
      .ternary condition.undeferred yes.undeferred no.undeferred location
  | .deferred inner _ _ => inner.undeferred
  | .move inner location => .move inner.undeferred location
  | .assign target value location => .assign target.undeferred value.undeferred location

/-- Some expressions with their deferred nodes replaced. -/
def undeferredOf : List Expr → List Expr
  | [] => []
  | first :: others => first.undeferred :: undeferredOf others

end

theorem undeferredOf_eq_map (items : List Expr) : undeferredOf items = items.map undeferred := by
  induction items with
  | nil => rfl
  | cons first others ih => rw [undeferredOf, ih, List.map_cons]

theorem undeferred_of_not_isDeferred {tree : Expr} (other : ¬ tree.IsDeferred) :
    tree.undeferred = tree.mapParts undeferred := by
  cases tree with
  | deferred inner catching location => exact absurd trivial other
  | _ => simp only [undeferred, mapParts, undeferredOf_eq_map]

theorem undeferred_wrapped (catching : Bool) (tree : Expr) :
    (tree.wrapped catching).undeferred = tree.undeferred := by
  by_cases access : tree.IsTryMember
  · rw [wrapped_of_isTryMember access, undeferred]
  · rw [wrapped_of_not_isTryMember access]

/-! ## Expressions without deferred nodes -/

/-- No node of the expression is deferred. -/
def HasNoDeferred (tree : Expr) : Prop :=
  ∀ node ∈ tree.nodes, ¬ node.IsDeferred

theorem hasNoDeferred_iff {tree : Expr} :
    tree.HasNoDeferred ↔ ¬ tree.IsDeferred ∧ ∀ part ∈ tree.parts, part.HasNoDeferred := by
  simp only [HasNoDeferred, @mem_nodes_iff _ tree]
  grind

section

variable {location : Option Location}

@[simp]
theorem hasNoDeferred_atom (value : Atom) : HasNoDeferred (.atom value location) :=
  hasNoDeferred_iff.mpr ⟨id, by simp [parts]⟩

@[simp]
theorem hasNoDeferred_tuple_iff {items : List Expr} :
    HasNoDeferred (.tuple items location) ↔ ∀ item ∈ items, item.HasNoDeferred :=
  hasNoDeferred_iff.trans (and_iff_right id)

@[simp]
theorem hasNoDeferred_vector_iff {items : List Expr} :
    HasNoDeferred (.vector items location) ↔ ∀ item ∈ items, item.HasNoDeferred :=
  hasNoDeferred_iff.trans (and_iff_right id)

@[simp]
theorem hasNoDeferred_apply_iff {operator : Operator} {operands : List Expr} :
    HasNoDeferred (.apply operator operands location) ↔
      ∀ operand ∈ operands, operand.HasNoDeferred :=
  hasNoDeferred_iff.trans (and_iff_right id)

@[simp]
theorem hasNoDeferred_ternary_iff {condition yes no : Expr} :
    HasNoDeferred (.ternary condition yes no location) ↔
      condition.HasNoDeferred ∧ yes.HasNoDeferred ∧ no.HasNoDeferred := by
  refine hasNoDeferred_iff.trans ((and_iff_right id).trans ?_)
  simp [parts]

end

/-- The grammar has no form for a deferred expression. -/
theorem Derives.hasNoDeferred_of_mem_trees {location : Option Location} {phrase : Phrase}
    {tokens : List Lexeme} (derived : Derives location phrase tokens) :
    ∀ tree ∈ phrase.trees, tree.HasNoDeferred := by
  induction derived <;> simp_all [Phrase.trees]

theorem hasNoDeferred_of_parse {text : String} {location : Option Location} {tree : Expr}
    (accepted : parse text location = .ok tree) : tree.HasNoDeferred := by
  rcases parse_eq_ok_iff.mp accepted with ⟨kinds, _, derived⟩
  exact derived.hasNoDeferred_of_mem_trees tree (List.mem_singleton.mpr rfl)

/-! ## What deferring does -/

/-- What has been inserted is gone when the deferred nodes are taken away. -/
theorem undeferred_defer (catching : Bool) {tree : Expr} (plain : tree.HasNoDeferred) :
    (tree.defer catching).undeferred = tree := by
  induction tree using parts_induction with
  | step tree ih =>
      rcases hasNoDeferred_iff.mp plain with ⟨noDeferred, plainParts⟩
      have staysOther : ¬ (tree.mapParts (defer catching)).IsDeferred :=
        fun isDeferred => noDeferred (isDeferred_mapParts_iff.mp isDeferred)
      rw [defer_eq, undeferred_wrapped, undeferred_of_not_isDeferred staysOther,
        mapParts_mapParts]
      exact mapParts_eq_self fun part member => ih part member (plainParts part member)

/-- The deferred nodes of a tree are wrappers around its accesses to optional members. -/
structure IsWrapped (catching : Bool) (tree : Expr) : Prop where
  /-- Inside of a deferred node is an access.  The node has the given flag and the location of
  the access. -/
  deferred : ∀ inner caught location, .deferred inner caught location ∈ tree.nodes →
    inner.IsTryMember ∧ caught = catching ∧ location = inner.location
  /-- The tree itself is no access, -/
  whole : ¬ tree.IsTryMember
  /-- and what an access is directly inside of is a deferred node. -/
  inside : ∀ node ∈ tree.nodes, ∀ part ∈ node.parts, part.IsTryMember → node.IsDeferred

/-- The nodes of a deferred tree: the wrapper, if there is one, the node that may be in it, and
what the parts of the tree have become. -/
theorem mem_nodes_defer_iff {catching : Bool} {node tree : Expr} :
    let changed := tree.mapParts (defer catching)
    node ∈ (tree.defer catching).nodes ↔
      changed.IsTryMember ∧ node = .deferred changed catching changed.location ∨
        node = changed ∨ ∃ part ∈ tree.parts, node ∈ (part.defer catching).nodes := by
  intro changed
  have inside : node ∈ changed.nodes ↔
      node = changed ∨ ∃ part ∈ tree.parts, node ∈ (part.defer catching).nodes := by
    rw [mem_nodes_iff, parts_mapParts]
    grind
  rw [defer_eq]
  by_cases access : changed.IsTryMember
  · rw [wrapped_of_isTryMember access, nodes, List.mem_cons, inside]
    simp [access]
  · rw [wrapped_of_not_isTryMember access, inside]
    simp [access]

theorem isWrapped_defer (catching : Bool) {tree : Expr} (plain : tree.HasNoDeferred) :
    (tree.defer catching).IsWrapped catching := by
  induction tree using parts_induction with
  | step tree ih =>
      rcases hasNoDeferred_iff.mp plain with ⟨noDeferred, plainParts⟩
      refine ⟨?_, not_isTryMember_defer catching tree, ?_⟩
      · intro inner caught location member
        rcases mem_nodes_defer_iff.mp member with ⟨access, same⟩ | same | ⟨part, isPart, inPart⟩
        · cases same
          exact ⟨access, rfl, rfl⟩
        · have isDeferred : (tree.mapParts (defer catching)).IsDeferred := same ▸ trivial
          exact absurd (isDeferred_mapParts_iff.mp isDeferred) noDeferred
        · exact (ih part isPart (plainParts part isPart)).deferred inner caught location inPart
      · intro node member part isPart access
        rcases mem_nodes_defer_iff.mp member with ⟨_, rfl⟩ | rfl | ⟨other, isOther, inOther⟩
        · trivial
        · rw [parts_mapParts] at isPart
          rcases List.mem_map.mp isPart with ⟨before, _, rfl⟩
          exact absurd access (not_isTryMember_defer catching before)
        · exact (ih other isOther (plainParts other isOther)).inside node inOther part isPart
            access

/-- What is read from a text has no deferred nodes.  If an expression has none, then deferring
inserts wrappers around its accesses to optional members, and without these it is the
expression as it was. -/
theorem defer_only_wraps :
    (∀ text location tree, parse text location = .ok tree → tree.HasNoDeferred) ∧
      ∀ (tree : Expr) (catching : Bool), tree.HasNoDeferred →
        (tree.defer catching).undeferred = tree ∧ (tree.defer catching).IsWrapped catching :=
  ⟨fun _ _ _ accepted => hasNoDeferred_of_parse accepted,
    fun _ catching plain => ⟨undeferred_defer catching plain, isWrapped_defer catching plain⟩⟩

/-- The expression `f(x.?y) + z.?w.?v` has an access in an argument, and one whose receiver is
another one. -/
theorem defer_only_wraps_nested :
    let location : Option Location := some ⟨⟨"a.evt"⟩, 4⟩
    let name (text : String) : Expr := .atom (.id ⟨text⟩) location
    let access (receiver : Expr) (member : String) : Expr :=
      .apply .tryMember [receiver, .atom (.member member) location] location
    let tree : Expr := .apply .sum
      [.apply .call [name "f", access (name "x") "y"] location,
        access (access (name "z") "w") "v"] location
    parse "f(x.?y) + z.?w.?v" location = .ok tree ∧
      tree.defer true = .apply .sum
        [.apply .call [name "f", .deferred (access (name "x") "y") true location] location,
          .deferred (access (.deferred (access (name "z") "w") true location) "v") true location]
        location ∧
      (tree.defer true).undeferred = tree ∧ (tree.defer true).IsWrapped true := by
  intro location name access tree
  have accepted : parse "f(x.?y) + z.?w.?v" location = .ok tree := by decide +kernel
  have plain := defer_only_wraps.1 _ _ _ accepted
  exact ⟨accepted, rfl, defer_only_wraps.2 tree true plain⟩

end AnalyzerGlue.Expr
