import AnalyzerGlue.Proofs.Expr.Grammar

/-!
# Parts of expressions

Much of what is said about expressions does not depend on their kinds.  The parts of an
expression are the expressions directly inside of it, and `mapParts` changes these and nothing
else.  `parts_induction` is the induction that goes with them.
-/

namespace AnalyzerGlue.Expr

/-- The expressions directly inside of an expression, in their order. -/
def parts : Expr → List Expr
  | .atom _ _ => []
  | .tuple items _ | .vector items _ | .call _ items _ | .apply _ items _ => items
  | .memberCall receiver _ arguments _ => receiver :: arguments
  | .ternary condition yes no _ => [condition, yes, no]
  | .deferred inner _ _ | .move inner _ => [inner]
  | .assign target value _ => [target, value]

/-- The expression with another one in place of each part. -/
def mapParts (change : Expr → Expr) : Expr → Expr
  | .atom value location => .atom value location
  | .tuple items location => .tuple (items.map change) location
  | .vector items location => .vector (items.map change) location
  | .call callee arguments location => .call callee (arguments.map change) location
  | .memberCall receiver method arguments location =>
      .memberCall (change receiver) method (arguments.map change) location
  | .apply operator operands location => .apply operator (operands.map change) location
  | .ternary condition yes no location =>
      .ternary (change condition) (change yes) (change no) location
  | .deferred inner catching location => .deferred (change inner) catching location
  | .move inner location => .move (change inner) location
  | .assign target value location => .assign (change target) (change value) location

theorem parts_mapParts (change : Expr → Expr) (tree : Expr) :
    (tree.mapParts change).parts = tree.parts.map change := by
  cases tree <;> rfl

theorem mapParts_mapParts (first second : Expr → Expr) (tree : Expr) :
    (tree.mapParts first).mapParts second = tree.mapParts (second ∘ first) := by
  cases tree <;> simp [mapParts]

/-- A change that keeps the parts of an expression keeps the expression. -/
theorem mapParts_eq_self {change : Expr → Expr} {tree : Expr}
    (kept : ∀ part ∈ tree.parts, change part = part) : tree.mapParts change = tree := by
  have keptAll : ∀ {items : List Expr}, (∀ item ∈ items, change item = item) →
      items.map change = items := fun same => (List.map_congr_left same).trans (List.map_id' _)
  cases tree <;> simp_all [mapParts, parts]

theorem sizeOf_lt_of_mem_parts {tree part : Expr} (member : part ∈ tree.parts) :
    sizeOf part < sizeOf tree := by
  cases tree with
  | atom value location => cases member
  | tuple items location | vector items location | call callee items location
  | apply operator items location =>
      have bound : sizeOf part < sizeOf items := List.sizeOf_lt_of_mem member
      simp only [tuple.sizeOf_spec, vector.sizeOf_spec, call.sizeOf_spec, apply.sizeOf_spec]
      omega
  | memberCall receiver method arguments location =>
      rw [memberCall.sizeOf_spec]
      rcases List.mem_cons.mp member with rfl | member
      · omega
      · have bound : sizeOf part < sizeOf arguments := List.sizeOf_lt_of_mem member
        omega
  | ternary condition yes no location =>
      rw [ternary.sizeOf_spec]
      simp only [parts, List.mem_cons, List.not_mem_nil, or_false] at member
      rcases member with rfl | rfl | rfl <;> omega
  | deferred inner catching location =>
      rw [List.mem_singleton.mp member, deferred.sizeOf_spec]
      omega
  | move inner location =>
      rw [List.mem_singleton.mp member, move.sizeOf_spec]
      omega
  | assign target value location =>
      rw [assign.sizeOf_spec]
      simp only [parts, List.mem_cons, List.not_mem_nil, or_false] at member
      rcases member with rfl | rfl <;> omega

/-- What holds of an expression whenever it holds of its parts holds of every expression. -/
@[elab_as_elim]
theorem parts_induction {motive : Expr → Prop}
    (step : ∀ tree, (∀ part ∈ tree.parts, motive part) → motive tree) (tree : Expr) :
    motive tree :=
  step tree fun part _ => parts_induction step part
termination_by sizeOf tree
decreasing_by exact sizeOf_lt_of_mem_parts ‹_›

/-- A node of an expression is the expression or a node of a part. -/
theorem mem_nodes_iff {node tree : Expr} :
    node ∈ tree.nodes ↔ node = tree ∨ ∃ part ∈ tree.parts, node ∈ part.nodes := by
  cases tree <;> simp [nodes, parts, mem_nodesOf_iff]

end AnalyzerGlue.Expr
