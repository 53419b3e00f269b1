import Mathlib.Control.Monad.Basic
import AnalyzerGlue.Proofs.Expr.Exactness
import AnalyzerGlue.Proofs.Expr.Rendering

/-!
# Reading back what is rendered

The text of an accepted expression is accepted with the same expression, save
that calls of members come back as method calls.
-/

namespace AnalyzerGlue.Expr

/-- A text that is read as a conditional expression when a separating text
follows is accepted as a whole. -/
theorem parse_eq_ok_of_reads {location : Option Location} {tree : Expr} {text : List Char}
    (reads : Reads location (.ternary tree) text) :
    parse (String.ofList text) location = .ok tree := by
  rcases reads with ⟨tokens, derived, written⟩
  have spells := written.before Token.separates_nil .nil
  rw [List.append_nil, List.append_nil] at spells
  exact parse_eq_ok_iff.mpr ⟨tokens, by rwa [String.toList_ofList], derived⟩

/-- If a text is accepted with a tree, the text of the tree is accepted with the
tree that has method calls in place of the calls of members.  So the tree itself
comes back exactly if no node of it calls a member. -/
theorem parse_text_of_parse (text : String) (location : Option Location) (tree : Expr)
    (accepted : parse text location = .ok tree) :
    parse tree.text location = .ok tree.joined ∧
      (parse tree.text location = .ok tree ↔ ∀ node ∈ tree.nodes, ¬ node.CallsMember) := by
  rcases parse_eq_ok_iff.mp accepted with ⟨kinds, spells, derived⟩
  have rendered : Rendered location tree := rendered_of_derives derived spells.spelled_of_mem
  have readBack : parse tree.text location = .ok tree.joined :=
    parse_eq_ok_of_reads rendered.ternary
  refine ⟨readBack, ?_⟩
  rw [readBack, ← joined_eq_self_iff, Except.ok.injEq]

/-- Of `(a.b)(-c, "\\n") ? d : (e + 1) * 2` all comes back but the call, which
is rendered without its parentheses. -/
theorem parse_text_of_parse_member_call :
    let call (operator : Operator) (callee : List Expr) : Expr :=
      .ternary
        (.apply operator (callee ++ [.apply .minus [.atom (.id ⟨"c"⟩) none] none,
          .atom (.string "\n") none]) none)
        (.atom (.id ⟨"d"⟩) none)
        (.apply .product [.apply .sum [.atom (.id ⟨"e"⟩) none, .atom (.int 1) none] none,
          .atom (.int 2) none] none) none
    let operands : List Expr := [.atom (.id ⟨"a"⟩) none, .atom (.member "b") none]
    let tree := call .call [.apply .member operands none]
    parse "(a.b)(-c, \"\\n\") ? d : (e + 1) * 2" none = .ok tree ∧
      parse tree.text none = .ok (call .methodCall operands) ∧
      parse tree.text none ≠ .ok tree := by
  intro call operands tree
  have accepted : parse "(a.b)(-c, \"\\n\") ? d : (e + 1) * 2" none = .ok tree := by decide +kernel
  rcases parse_text_of_parse _ none tree accepted with ⟨readBack, iff⟩
  refine ⟨accepted, readBack, fun same => ?_⟩
  have keeps := iff.mp same
  simp [tree, call, nodes, CallsMember, IsMember, operands] at keeps

end AnalyzerGlue.Expr
