import AnalyzerGlue.Proofs.Expr.Steps

/-!
# Fuel of the expression parser

Each call inside of another one has one step of fuel less, so fuel bounds how
far calls are nested.  It bounds nothing else: an answer other than `endless`
is the answer for all greater amounts of fuel.

The functions of the parser are built from their own calls with `bind` and
`if`.  `Extends` is kept by both, and so one induction on the fuel proves it
for all functions at once.
-/

namespace AnalyzerGlue.Expr.Parser

variable {α β : Type} {location : Option Location}

/-! ## Steps that go further than others -/

/-- Whether a step does what another one does wherever that one does not run
out of fuel. -/
def Extends (further step : Parser α) : Prop :=
  ∀ tokens, step tokens ≠ .error .endless → further tokens = step tokens

namespace Extends

theorem refl (step : Parser α) : Extends step step := by
  intro tokens _
  rfl

theorem endless (further : Parser α) : Extends further (fail .endless) := by
  intro tokens ends
  exact absurd rfl ends

theorem bind {further step : Parser α} {furtherNext next : α → Parser β}
    (first : Extends further step) (second : ∀ value, Extends (furtherNext value) (next value)) :
    Extends (further >>= furtherNext) (step >>= next) := by
  intro tokens ends
  have stepEnds : step tokens ≠ .error .endless := by
    intro stops
    apply ends
    change Except.bind (step tokens) _ = _
    rw [stops]
    rfl
  change Except.bind (further tokens) _ = Except.bind (step tokens) _
  rw [first tokens stepEnds]
  cases taken : step tokens with
  | error error => rfl
  | ok pair =>
      rcases pair with ⟨value, middle⟩
      rw [bind_eq_of_eq_ok taken] at ends
      exact second value middle ends

theorem ite {condition : Prop} [Decidable condition] {furtherYes yes furtherNo no : Parser α}
    (whenTrue : Extends furtherYes yes) (whenFalse : Extends furtherNo no) :
    Extends (if condition then furtherYes else furtherNo) (if condition then yes else no) := by
  by_cases holds : condition
  · rw [if_pos holds, if_pos holds]
    exact whenTrue
  · rw [if_neg holds, if_neg holds]
    exact whenFalse

end Extends

/-! ## One step of each function -/

/-- Taking the parts of a name with more fuel. -/
theorem path_extends {fuel more : Nat} (start : String) (le : fuel ≤ more) :
    Extends (path more start) (path fuel start) := by
  induction fuel generalizing more start with
  | zero => exact .endless _
  | succ fuel ih =>
      cases more with
      | zero => exact absurd le (Nat.not_succ_le_zero fuel)
      | succ more =>
          rw [path, path]
          apply Extends.bind (.refl _)
          intro answer
          apply Extends.ite _ (.refl _)
          apply Extends.bind (.refl _)
          intro part
          exact ih _ (Nat.le_of_succ_le_succ le)

/-- The functions of the parser with more fuel against those with less. -/
structure Fueled (location : Option Location) (more fuel : Nat) : Prop where
  ternary : Extends (ternary location more) (ternary location fuel)
  binary (least : Nat) : Extends (binary location more least) (binary location fuel least)
  binaryTail (least : Nat) (left : Expr) :
    Extends (binaryTail location more least left) (binaryTail location fuel least left)
  chain : Extends (chain location more) (chain location fuel)
  chainTail (expr : Expr) :
    Extends (chainTail location more expr) (chainTail location fuel expr)
  primary : Extends (primary location more) (primary location fuel)
  items (close : Symbol) : Extends (items location more close) (items location fuel close)

namespace Fueled

variable {more fuel : Nat}

theorem ternary_succ (ih : Fueled location more fuel) :
    Extends (Parser.ternary location (more + 1)) (Parser.ternary location (fuel + 1)) := by
  rw [Parser.ternary, Parser.ternary]
  apply Extends.bind (ih.binary 0)
  intro condition
  apply Extends.bind (.refl _)
  intro answer
  apply Extends.ite _ (.refl _)
  apply Extends.bind ih.ternary
  intro yes
  apply Extends.bind (.refl _)
  intro _
  exact .bind ih.ternary fun no => .refl _

theorem binary_succ (ih : Fueled location more fuel) (least : Nat) :
    Extends (Parser.binary location (more + 1) least)
      (Parser.binary location (fuel + 1) least) := by
  rw [Parser.binary, Parser.binary]
  apply Extends.bind (.refl _)
  intro token
  cases Operator.beforeOperand? token.kind with
  | none => exact .bind ih.chain fun left => ih.binaryTail least left
  | some operator =>
      apply Extends.bind (.refl _)
      intro _
      exact .bind (ih.binary signPower) fun operand => ih.binaryTail least _

theorem binaryTail_succ (ih : Fueled location more fuel) (least : Nat) (left : Expr) :
    Extends (Parser.binaryTail location (more + 1) least left)
      (Parser.binaryTail location (fuel + 1) least left) := by
  rw [Parser.binaryTail, Parser.binaryTail]
  apply Extends.bind (.refl _)
  intro token
  cases Operator.betweenOperands? token.kind with
  | none => exact .refl _
  | some pair =>
      rcases pair with ⟨operator, power⟩
      apply Extends.ite (.refl _)
      apply Extends.bind (.refl _)
      intro _
      exact .bind (ih.binary (power + 1)) fun right => ih.binaryTail least _

theorem chain_succ (ih : Fueled location more fuel) :
    Extends (Parser.chain location (more + 1)) (Parser.chain location (fuel + 1)) := by
  rw [Parser.chain, Parser.chain]
  exact .bind ih.primary fun first => ih.chainTail first

theorem chainTail_succ (ih : Fueled location more fuel) (expr : Expr) :
    Extends (Parser.chainTail location (more + 1) expr)
      (Parser.chainTail location (fuel + 1) expr) := by
  rw [Parser.chainTail, Parser.chainTail]
  apply Extends.bind (.refl _)
  intro token
  split
  · apply Extends.bind (.refl _)
    intro _
    exact .bind (ih.items .rightParen) fun arguments => ih.chainTail _
  · apply Extends.bind (.refl _)
    intro _
    apply Extends.bind ih.ternary
    intro index
    exact .bind (.refl _) fun _ => ih.chainTail _
  · apply Extends.bind (.refl _)
    intro _
    apply Extends.bind (.refl _)
    intro name
    apply Extends.bind (.refl _)
    intro answer
    apply Extends.ite _ (ih.chainTail _)
    exact .bind (ih.items .rightParen) fun arguments => ih.chainTail _
  · apply Extends.bind (.refl _)
    intro _
    exact .bind (.refl _) fun name => ih.chainTail _
  · apply Extends.bind (.refl _)
    intro _
    exact .bind (.refl _) fun name => ih.chainTail _
  · exact .refl _

theorem primary_succ (ih : Fueled location more fuel) (le : fuel ≤ more) :
    Extends (Parser.primary location (more + 1)) (Parser.primary location (fuel + 1)) := by
  rw [Parser.primary, Parser.primary]
  apply Extends.bind (.refl _)
  intro token
  split
  · apply Extends.bind (.refl _)
    intro start
    exact .bind (path_extends start le) fun name => .refl _
  · apply Extends.bind (.refl _)
    intro _
    apply Extends.bind (.refl _)
    intro closes
    apply Extends.ite (.refl _)
    apply Extends.bind ih.ternary
    intro first
    apply Extends.bind (.refl _)
    intro grouped
    apply Extends.ite (.refl _)
    apply Extends.bind (.refl _)
    intro _
    exact .bind (ih.items .rightParen) fun others => .refl _
  · apply Extends.bind (.refl _)
    intro _
    exact .bind (ih.items .rightBracket) fun elements => .refl _
  · exact .refl _

theorem items_succ (ih : Fueled location more fuel) (close : Symbol) :
    Extends (Parser.items location (more + 1) close)
      (Parser.items location (fuel + 1) close) := by
  rw [Parser.items, Parser.items]
  apply Extends.bind (.refl _)
  intro closes
  apply Extends.ite (.refl _)
  apply Extends.bind ih.ternary
  intro first
  apply Extends.bind (.refl _)
  intro separated
  apply Extends.ite _ (.refl _)
  exact .bind (ih.items close) fun others => .refl _

end Fueled

/-- All functions of the parser keep their answers when there is more fuel. -/
theorem fueled_of_le (location : Option Location) {fuel more : Nat} (le : fuel ≤ more) :
    Fueled location more fuel := by
  induction fuel generalizing more with
  | zero =>
      constructor
      · exact .endless _
      · intro least
        exact .endless _
      · intro least left
        exact .endless _
      · exact .endless _
      · intro expr
        exact .endless _
      · exact .endless _
      · intro close
        exact .endless _
  | succ fuel ih =>
      cases more with
      | zero => exact absurd le (Nat.not_succ_le_zero fuel)
      | succ more =>
          have le := Nat.le_of_succ_le_succ le
          have calls := ih le
          exact ⟨calls.ternary_succ, calls.binary_succ, calls.binaryTail_succ, calls.chain_succ,
            calls.chainTail_succ, calls.primary_succ le, calls.items_succ⟩

/-- An answer to a whole list is kept when there is more fuel. -/
theorem whole_eq_of_le {fuel more : Nat} {tokens : List Token} (le : fuel ≤ more)
    (ends : whole location fuel tokens ≠ .error .endless) :
    whole location more tokens = whole location fuel tokens :=
  Extends.bind (fueled_of_le location le).ternary (fun _ => .refl _) tokens ends

end AnalyzerGlue.Expr.Parser
