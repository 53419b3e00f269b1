import AnalyzerGlue.Proofs.Expr.Grammar

/-!
# Calls of members and method calls

The access `a.b` can be called in two ways: `(a.b)(c)` is a call whose callee
is the access, and `a.b(c)` is a method call.  Since an access never needs
parentheses, both are written in the second way.  `joined` turns every call of
the first kind into one of the second.
-/

namespace AnalyzerGlue.Expr

/-- Whether an expression is an access to a member. -/
def IsMember : Expr → Prop
  | .apply .member [_, _] _ => True
  | _ => False

/-- Whether an expression is a call whose callee is an access to a member. -/
def CallsMember : Expr → Prop
  | .apply .call (callee :: _) _ => callee.IsMember
  | _ => False

/-- An operator with its operands, where a call of a member is a method call. -/
def joinedApply (operator : Operator) (operands : List Expr) (location : Option Location) :
    Expr :=
  match operator, operands with
  | .call, .apply .member [receiver, name] _ :: arguments =>
      .apply .methodCall (receiver :: name :: arguments) location
  | _, _ => .apply operator operands location

mutual

/-- An expression with all calls of members turned into method calls. -/
def joined : Expr → Expr
  | .atom value location => .atom value location
  | .tuple items location => .tuple (joinedOf items) location
  | .vector items location => .vector (joinedOf items) location
  | .call callee arguments location => .call callee (joinedOf arguments) location
  | .memberCall receiver method arguments location =>
      .memberCall receiver.joined method (joinedOf arguments) location
  | .apply operator operands location => joinedApply operator (joinedOf operands) location
  | .ternary condition yes no location =>
      .ternary condition.joined yes.joined no.joined location
  | .deferred inner catching location => .deferred inner.joined catching location
  | .move inner location => .move inner.joined location
  | .assign target value location => .assign target.joined value.joined location

/-- Some expressions with all calls of members turned into method calls. -/
def joinedOf : List Expr → List Expr
  | [] => []
  | first :: others => first.joined :: joinedOf others

end

theorem joinedOf_eq_map (items : List Expr) : joinedOf items = items.map joined := by
  induction items with
  | nil => rfl
  | cons first others ih => rw [joinedOf, ih, List.map_cons]

/-! ## One operator -/

section

variable {location : Option Location}

/-- Only calls are turned into something else. -/
theorem joinedApply_of_ne_call {operator : Operator} (noCall : operator ≠ .call)
    (operands : List Expr) :
    joinedApply operator operands location = .apply operator operands location := by
  unfold joinedApply
  split
  · exact absurd rfl noCall
  · rfl

/-- A call of anything but a member stays a call. -/
theorem joinedApply_call_of_not_isMember {callee : Expr} (noMember : ¬ callee.IsMember)
    (arguments : List Expr) :
    joinedApply .call (callee :: arguments) location =
      .apply .call (callee :: arguments) location := by
  unfold joinedApply
  split
  · rename_i same
    cases same
    exact absurd trivial noMember
  · rfl

/-- An operator is kept exactly if it does not call a member. -/
theorem joinedApply_eq_apply_iff {operator : Operator} {operands others : List Expr} :
    joinedApply operator operands location = .apply operator others location ↔
      operands = others ∧ ¬ (apply operator operands location).CallsMember := by
  unfold joinedApply
  split
  · simp [CallsMember, IsMember]
  · rename_i free
    have keeps : ¬ (apply operator operands location).CallsMember := by
      intro calls
      unfold CallsMember at calls
      split at calls
      · rename_i callee arguments same
        cases same
        unfold IsMember at calls
        split at calls
        · exact free _ _ _ _ rfl rfl
        · exact calls
      · exact calls
    simp [keeps]

end

/-- Turning calls into method calls keeps accesses to members and makes none. -/
theorem isMember_joined_iff {tree : Expr} : tree.joined.IsMember ↔ tree.IsMember := by
  cases tree with
  | apply operator operands location =>
      rw [joined]
      by_cases isMember : operator = .member
      · subst isMember
        rw [joinedApply_of_ne_call (by decide), joinedOf_eq_map]
        rcases operands with _ | ⟨_, _ | ⟨_, _ | ⟨_, _⟩⟩⟩ <;> rfl
      · unfold joinedApply
        split <;> simp [IsMember, isMember]
  | _ => rfl

/-! ## Expressions that are kept -/

mutual

/-- An expression is kept exactly if no node of it calls a member. -/
theorem joined_eq_self_iff (tree : Expr) :
    tree.joined = tree ↔ ∀ node ∈ tree.nodes, ¬ node.CallsMember := by
  match tree with
  | .atom value location => simp [joined, nodes, CallsMember]
  | .tuple items location =>
      simp [joined, nodes, CallsMember, joinedOf_eq_self_iff items]
  | .vector items location =>
      simp [joined, nodes, CallsMember, joinedOf_eq_self_iff items]
  | .call callee arguments location =>
      simp [joined, nodes, CallsMember, joinedOf_eq_self_iff arguments]
  | .memberCall receiver method arguments location =>
      simp [joined, nodes, CallsMember, joinedOf_eq_self_iff arguments,
        joined_eq_self_iff receiver, or_imp, forall_and]
  | .apply operator operands location =>
      rw [joined, joinedApply_eq_apply_iff, nodes, List.forall_mem_cons,
        ← joinedOf_eq_self_iff operands]
      constructor
      · rintro ⟨same, keeps⟩
        exact ⟨by rwa [same] at keeps, same⟩
      · rintro ⟨keeps, same⟩
        exact ⟨same, by rwa [same]⟩
  | .ternary condition yes no location =>
      simp [joined, nodes, CallsMember, joined_eq_self_iff condition, joined_eq_self_iff yes,
        joined_eq_self_iff no, or_imp, forall_and]
  | .deferred inner catching location =>
      simp [joined, nodes, CallsMember, joined_eq_self_iff inner]
  | .move inner location => simp [joined, nodes, CallsMember, joined_eq_self_iff inner]
  | .assign target value location =>
      simp [joined, nodes, CallsMember, joined_eq_self_iff target, joined_eq_self_iff value,
        or_imp, forall_and]

theorem joinedOf_eq_self_iff (items : List Expr) :
    joinedOf items = items ↔ ∀ node ∈ nodesOf items, ¬ node.CallsMember := by
  match items with
  | [] => simp [joinedOf, nodesOf]
  | first :: others =>
      simp [joinedOf, nodesOf, joined_eq_self_iff first, joinedOf_eq_self_iff others,
        or_imp, forall_and]

end

end AnalyzerGlue.Expr
