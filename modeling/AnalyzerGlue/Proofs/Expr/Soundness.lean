import AnalyzerGlue.Proofs.Expr.Grammar
import AnalyzerGlue.Proofs.Expr.Steps

/-!
# What the parser returns is derived

Whenever a function of the parser succeeds on a terminated list, the tokens it
has taken derive the tree it returns.  The functions call each other with less
fuel, so the proof goes by induction on the fuel and proves the statement for
all of them at once.

The loops carry an invariant of their own.  Behind an operator of some power,
the right operand ends before the next operator that does not bind tighter; so
the next operator of the loop binds at most as tight as the one before, and
what has been read so far is a left operand for it.
-/

namespace AnalyzerGlue.Expr.Parser

variable {location : Option Location}

/-- Whether no operator of at least the given power is in front. -/
def StopsBelow (power : Nat) (tokens : List Token) : Prop :=
  ∀ operator found, Operator.betweenOperands? (front tokens).kind = some (operator, found) →
    found < power

/-- What the functions of the parser guarantee when they have the given fuel.
A function that takes further tokens behind some tree guarantees it for the
tokens of that tree and its own together. -/
structure Sound (location : Option Location) (fuel : Nat) : Prop where
  ternary {tokens rest : List Token} {tree : Expr} :
    Terminated tokens → ternary location fuel tokens = .ok (tree, rest) →
      ∃ taken, Leaves tokens taken rest ∧ Derives location (.ternary tree) taken
  binary {least : Nat} {tokens rest : List Token} {tree : Expr} :
    least ≤ 12 → Terminated tokens → binary location fuel least tokens = .ok (tree, rest) →
      ∃ taken, Leaves tokens taken rest ∧
        Derives location (.level (max 1 least) tree) taken ∧ StopsBelow least rest
  binaryTail {least level : Nat} {left tree : Expr} {before : List Lexeme}
      {tokens rest : List Token} :
    max 1 least ≤ level → level ≤ 12 → Derives location (.level level left) before →
      StopsBelow (level + 1) tokens → Terminated tokens →
      binaryTail location fuel least left tokens = .ok (tree, rest) →
      ∃ taken, Leaves tokens taken rest ∧
        Derives location (.level (max 1 least) tree) (before ++ taken) ∧ StopsBelow least rest
  chain {tokens rest : List Token} {tree : Expr} :
    Terminated tokens → chain location fuel tokens = .ok (tree, rest) →
      ∃ taken, Leaves tokens taken rest ∧ Derives location (.chain tree) taken
  chainTail {expr tree : Expr} {before : List Lexeme} {tokens rest : List Token} :
    Derives location (.chain expr) before →
      ((front tokens).kind = .symbol .leftParen → ¬ EndsInMember before) →
      Terminated tokens → chainTail location fuel expr tokens = .ok (tree, rest) →
      ∃ taken, Leaves tokens taken rest ∧ Derives location (.chain tree) (before ++ taken)
  primary {tokens rest : List Token} {tree : Expr} :
    Terminated tokens → primary location fuel tokens = .ok (tree, rest) →
      ∃ taken, Leaves tokens taken rest ∧ Derives location (.primary tree) taken
  items {close : Symbol} {tokens rest : List Token} {trees : List Expr} :
    Terminated tokens → items location fuel close tokens = .ok (trees, rest) →
      ∃ taken, Leaves tokens (taken ++ [.symbol close]) rest ∧
        Derives location (.items trees) taken

/-! ## Names -/

/-- The further parts of a name are words behind double colons. -/
theorem path_sound {fuel : Nat} {start : String} {tokens rest : List Token} {name : QualName}
    (terminated : Terminated tokens) (taken : path fuel start tokens = .ok (name, rest)) :
    ∃ parts, Leaves tokens (parts.flatMap fun part => [.symbol .doubleColon, .word part]) rest ∧
      name = pathName start parts := by
  induction fuel generalizing start tokens with
  | zero => cases taken
  | succ fuel ih =>
      rw [path, bind_eq_ok_iff] at taken
      rcases taken with ⟨answer, middle, answered, taken⟩
      rcases accept_cases terminated answered with ⟨rfl, colons⟩ | ⟨rfl, rfl, _⟩
      · rw [if_pos rfl, bind_eq_ok_iff] at taken
        rcases taken with ⟨part, next, read, taken⟩
        have partTaken := leaves_of_word_eq_ok colons.terminated read
        rcases ih partTaken.terminated taken with ⟨parts, others, rfl⟩
        exact ⟨part :: parts, colons.trans (partTaken.trans others),
          (pathName_cons start part parts).symm⟩
      · rw [if_neg Bool.false_ne_true, pure_eq_ok_iff] at taken
        rcases taken with ⟨rfl, rfl⟩
        exact ⟨[], .refl terminated, by rw [pathName, String.intercalate_singleton]⟩

/-! ## One step of each function -/

namespace Sound

variable {fuel : Nat}

theorem ternary_succ (ih : Sound location fuel) {tokens rest : List Token} {tree : Expr}
    (terminated : Terminated tokens)
    (taken : Parser.ternary location (fuel + 1) tokens = .ok (tree, rest)) :
    ∃ taken, Leaves tokens taken rest ∧ Derives location (.ternary tree) taken := by
  rw [Parser.ternary, bind_eq_ok_iff] at taken
  rcases taken with ⟨condition, middle, conditionRead, taken⟩
  rcases ih.binary (Nat.zero_le 12) terminated conditionRead with
    ⟨first, firstLeaves, conditionDerived, _⟩
  rw [bind_eq_ok_iff] at taken
  rcases taken with ⟨answer, behindMark, answered, taken⟩
  rcases accept_cases firstLeaves.terminated answered with ⟨rfl, mark⟩ | ⟨rfl, rfl, _⟩
  · rw [if_pos rfl, bind_eq_ok_iff] at taken
    rcases taken with ⟨yes, behindYes, yesRead, taken⟩
    rcases ih.ternary mark.terminated yesRead with ⟨second, secondLeaves, yesDerived⟩
    rw [bind_eq_ok_iff] at taken
    rcases taken with ⟨_, behindColon, colonRead, taken⟩
    have colon := leaves_of_expect_eq_ok secondLeaves.terminated colonRead
    rw [bind_eq_ok_iff] at taken
    rcases taken with ⟨no, behindNo, noRead, taken⟩
    rcases ih.ternary colon.terminated noRead with ⟨third, thirdLeaves, noDerived⟩
    rw [pure_eq_ok_iff] at taken
    rcases taken with ⟨rfl, rfl⟩
    exact ⟨_, firstLeaves.trans (mark.trans (secondLeaves.trans (colon.trans thirdLeaves))),
      .conditional conditionDerived yesDerived noDerived⟩
  · rw [if_neg Bool.false_ne_true, pure_eq_ok_iff] at taken
    rcases taken with ⟨rfl, rfl⟩
    exact ⟨first, firstLeaves, .plain conditionDerived⟩

theorem binary_succ (ih : Sound location fuel) {least : Nat} {tokens rest : List Token}
    {tree : Expr} (bounded : least ≤ 12) (terminated : Terminated tokens)
    (taken : Parser.binary location (fuel + 1) least tokens = .ok (tree, rest)) :
    ∃ taken, Leaves tokens taken rest ∧
      Derives location (.level (max 1 least) tree) taken ∧ StopsBelow least rest := by
  -- No operator between operands has more than the power of a sign.
  have stops : ∀ tokens, StopsBelow (12 + 1) tokens := by
    intro tokens operator found inFront
    have bounds := power_bounds (betweenOperands?_eq_some_iff.mp inFront).1
    omega
  rw [Parser.binary, peek_bind] at taken
  cases sign : Operator.beforeOperand? (front tokens).kind with
  | some operator =>
      rw [sign] at taken
      rcases beforeOperand?_eq_some_iff.mp sign with ⟨fixity, inFront⟩
      have signLeaves :=
        Leaves.front terminated inFront (by cases operator <;> simp [Operator.sign])
      simp only [advance_bind, bind_eq_ok_iff] at taken
      rcases taken with ⟨operand, middle, operandRead, taken⟩
      rcases ih.binary (Nat.le_refl 12) signLeaves.terminated operandRead with
        ⟨inside, insideLeaves, operandDerived, _⟩
      rcases ih.binaryTail (by omega) (Nat.le_refl 12) (.before fixity operandDerived)
          (stops middle) insideLeaves.terminated taken with ⟨others, othersLeaves, derived, stop⟩
      exact ⟨_, signLeaves.trans (insideLeaves.trans othersLeaves), derived, stop⟩
  | none =>
      rw [sign] at taken
      simp only [bind_eq_ok_iff] at taken
      rcases taken with ⟨left, middle, leftRead, taken⟩
      rcases ih.chain terminated leftRead with ⟨first, firstLeaves, leftDerived⟩
      rcases ih.binaryTail (by omega) (Nat.le_refl 12) (.unsigned leftDerived)
          (stops middle) firstLeaves.terminated taken with ⟨others, othersLeaves, derived, stop⟩
      exact ⟨_, firstLeaves.trans othersLeaves, derived, stop⟩

theorem binaryTail_succ (ih : Sound location fuel) {least level : Nat} {left tree : Expr}
    {before : List Lexeme} {tokens rest : List Token}
    (low : max 1 least ≤ level) (high : level ≤ 12)
    (leftDerived : Derives location (.level level left) before)
    (stops : StopsBelow (level + 1) tokens) (terminated : Terminated tokens)
    (taken : Parser.binaryTail location (fuel + 1) least left tokens = .ok (tree, rest)) :
    ∃ taken, Leaves tokens taken rest ∧
      Derives location (.level (max 1 least) tree) (before ++ taken) ∧
      StopsBelow least rest := by
  have done : StopsBelow least tokens →
      ∃ taken, Leaves tokens taken tokens ∧
        Derives location (.level (max 1 least) left) (before ++ taken) ∧
        StopsBelow least tokens := by
    intro stop
    have lowered := leftDerived.lower (Nat.le_max_left 1 least) low high
    exact ⟨[], .refl terminated, by rwa [List.append_nil], stop⟩
  rw [Parser.binaryTail, peek_bind] at taken
  cases inFront : Operator.betweenOperands? (front tokens).kind with
  | none =>
      rw [inFront] at taken
      rcases pure_eq_ok_iff.mp taken with ⟨rfl, rfl⟩
      apply done
      intro operator power found
      rw [inFront] at found
      cases found
  | some pair =>
      rcases pair with ⟨operator, power⟩
      rw [inFront] at taken
      rcases betweenOperands?_eq_some_iff.mp inFront with ⟨fixity, isSign⟩
      rcases power_bounds fixity with ⟨positive, small⟩
      have fits := stops operator power inFront
      by_cases loose : power < least
      · simp only [if_pos loose] at taken
        rcases pure_eq_ok_iff.mp taken with ⟨rfl, rfl⟩
        apply done
        intro operator power found
        rw [inFront] at found
        cases found
        exact loose
      · simp only [if_neg loose, advance_bind, bind_eq_ok_iff] at taken
        have signLeaves :=
          Leaves.front terminated isSign (by cases operator <;> simp [Operator.sign])
        rcases taken with ⟨right, middle, rightRead, taken⟩
        rcases ih.binary (by omega) signLeaves.terminated rightRead with
          ⟨inside, insideLeaves, rightDerived, rightStops⟩
        rw [Nat.max_eq_right (by omega)] at rightDerived
        -- What was read so far is an operand of the level of this operator.
        have leftOperand := leftDerived.lower positive (by omega) high
        rcases ih.binaryTail (by omega) (by omega) (.between fixity leftOperand rightDerived)
            rightStops insideLeaves.terminated taken with ⟨others, othersLeaves, derived, stop⟩
        refine ⟨_, signLeaves.trans (insideLeaves.trans othersLeaves), ?_, stop⟩
        simpa using derived

theorem chain_succ (ih : Sound location fuel) {tokens rest : List Token} {tree : Expr}
    (terminated : Terminated tokens)
    (taken : Parser.chain location (fuel + 1) tokens = .ok (tree, rest)) :
    ∃ taken, Leaves tokens taken rest ∧ Derives location (.chain tree) taken := by
  rw [Parser.chain, bind_eq_ok_iff] at taken
  rcases taken with ⟨first, middle, firstRead, taken⟩
  rcases ih.primary terminated firstRead with ⟨start, startLeaves, firstDerived⟩
  rcases ih.chainTail (.single firstDerived)
      (fun _ => Derives.not_endsInMember_of_primary firstDerived) startLeaves.terminated taken with
    ⟨others, othersLeaves, derived⟩
  exact ⟨_, startLeaves.trans othersLeaves, derived⟩

/-- Going on behind one more part of a chain. -/
theorem chainTail_part (ih : Sound location fuel) {expr tree : Expr}
    {before part : List Lexeme} {tokens middle rest : List Token}
    (partLeaves : Leaves tokens part middle)
    (derived : Derives location (.chain expr) (before ++ part))
    (free : (front middle).kind = .symbol .leftParen → ¬ EndsInMember (before ++ part))
    (taken : Parser.chainTail location fuel expr middle = .ok (tree, rest)) :
    ∃ taken, Leaves tokens taken rest ∧ Derives location (.chain tree) (before ++ taken) := by
  rcases ih.chainTail derived free partLeaves.terminated taken with ⟨others, othersLeaves, whole⟩
  exact ⟨part ++ others, partLeaves.trans othersLeaves, by rwa [← List.append_assoc]⟩

theorem chainTail_succ (ih : Sound location fuel) {expr tree : Expr} {before : List Lexeme}
    {tokens rest : List Token} (derived : Derives location (.chain expr) before)
    (free : (front tokens).kind = .symbol .leftParen → ¬ EndsInMember before)
    (terminated : Terminated tokens)
    (taken : Parser.chainTail location (fuel + 1) expr tokens = .ok (tree, rest)) :
    ∃ taken, Leaves tokens taken rest ∧ Derives location (.chain tree) (before ++ taken) := by
  rw [Parser.chainTail, peek_bind] at taken
  generalize inFront : (front tokens).kind = kind at taken
  split at taken
  · simp only [advance_bind, bind_eq_ok_iff] at taken
    rcases taken with ⟨arguments, middle, argumentsRead, taken⟩
    have paren := Leaves.front terminated inFront (by simp)
    rcases ih.items paren.terminated argumentsRead with ⟨inside, insideLeaves, listDerived⟩
    exact ih.chainTail_part (paren.trans insideLeaves) (.call derived (free inFront) listDerived)
      (fun _ => Derives.not_endsInMember_of_getLast? (by simp [List.getLast?_cons])) taken
  · simp only [advance_bind, bind_eq_ok_iff] at taken
    rcases taken with ⟨position, middle, positionRead, _, behindClose, closeRead, taken⟩
    have bracket := Leaves.front terminated inFront (by simp)
    rcases ih.ternary bracket.terminated positionRead with ⟨inside, insideLeaves, positionDerived⟩
    have close := leaves_of_expect_eq_ok insideLeaves.terminated closeRead
    exact ih.chainTail_part (bracket.trans (insideLeaves.trans close))
      (.index derived positionDerived)
      (fun _ => Derives.not_endsInMember_of_getLast? (by simp [List.getLast?_cons])) taken
  · simp only [advance_bind, bind_eq_ok_iff] at taken
    rcases taken with ⟨name, behindName, nameRead, answer, middle, answered, taken⟩
    have dot := Leaves.front terminated inFront (by simp)
    have nameLeaves := leaves_of_word_eq_ok dot.terminated nameRead
    rcases accept_cases nameLeaves.terminated answered with ⟨rfl, paren⟩ | ⟨rfl, rfl, noParen⟩
    · simp only [if_true, bind_eq_ok_iff] at taken
      rcases taken with ⟨arguments, behindList, argumentsRead, taken⟩
      rcases ih.items paren.terminated argumentsRead with ⟨inside, insideLeaves, listDerived⟩
      exact ih.chainTail_part (dot.trans (nameLeaves.trans (paren.trans insideLeaves)))
        (.methodCall name derived listDerived)
        (fun _ => Derives.not_endsInMember_of_getLast? (by simp [List.getLast?_cons])) taken
    · exact ih.chainTail_part (dot.trans nameLeaves) (.access name rfl derived)
        (fun inFront => absurd inFront noParen) taken
  · simp only [advance_bind, bind_eq_ok_iff] at taken
    rcases taken with ⟨name, behindName, nameRead, taken⟩
    have sign := Leaves.front terminated inFront (by simp)
    have nameLeaves := leaves_of_word_eq_ok sign.terminated nameRead
    exact ih.chainTail_part (sign.trans nameLeaves) (.access name rfl derived)
      (fun _ => mt endsInMember_append_iff.mp (by simp)) taken
  · simp only [advance_bind, bind_eq_ok_iff] at taken
    rcases taken with ⟨name, behindName, nameRead, taken⟩
    have sign := Leaves.front terminated inFront (by simp)
    have nameLeaves := leaves_of_word_eq_ok sign.terminated nameRead
    exact ih.chainTail_part (sign.trans nameLeaves) (.access name rfl derived)
      (fun _ => mt endsInMember_append_iff.mp (by simp)) taken
  · rcases pure_eq_ok_iff.mp taken with ⟨rfl, rfl⟩
    exact ⟨[], .refl terminated, by rwa [List.append_nil]⟩

theorem primary_succ (ih : Sound location fuel) {tokens rest : List Token} {tree : Expr}
    (terminated : Terminated tokens)
    (taken : Parser.primary location (fuel + 1) tokens = .ok (tree, rest)) :
    ∃ taken, Leaves tokens taken rest ∧ Derives location (.primary tree) taken := by
  rw [Parser.primary, peek_bind] at taken
  generalize inFront : (front tokens).kind = kind at taken
  split at taken
  · simp only [bind_eq_ok_iff] at taken
    rcases taken with ⟨start, middle, startRead, name, behindName, nameRead, taken⟩
    rcases pure_eq_ok_iff.mp taken with ⟨rfl, rfl⟩
    have startLeaves := leaves_of_word_eq_ok terminated startRead
    rcases path_sound startLeaves.terminated nameRead with ⟨parts, partsLeaves, rfl⟩
    exact ⟨_, startLeaves.trans partsLeaves, .name start parts⟩
  · simp only [advance_bind, bind_eq_ok_iff] at taken
    rcases taken with ⟨answer, middle, answered, taken⟩
    have paren := Leaves.front terminated inFront (by simp)
    rcases accept_cases paren.terminated answered with ⟨rfl, close⟩ | ⟨rfl, rfl, _⟩
    · simp only [if_true, pure_eq_ok_iff] at taken
      rcases taken with ⟨rfl, rfl⟩
      exact ⟨_, paren.trans close, .unit⟩
    · simp only [Bool.false_eq_true, if_false, bind_eq_ok_iff] at taken
      rcases taken with ⟨first, behindFirst, firstRead, answer, behindClose, answered, taken⟩
      rcases ih.ternary paren.terminated firstRead with ⟨start, startLeaves, firstDerived⟩
      rcases accept_cases startLeaves.terminated answered with ⟨rfl, close⟩ | ⟨rfl, rfl, _⟩
      · simp only [if_true, pure_eq_ok_iff] at taken
        rcases taken with ⟨rfl, rfl⟩
        exact ⟨_, paren.trans (startLeaves.trans close), .group firstDerived⟩
      · simp only [Bool.false_eq_true, if_false, bind_eq_ok_iff, pure_eq_ok_iff] at taken
        rcases taken with ⟨_, behindComma, commaRead, others, behindList, othersRead, rfl, rfl⟩
        have comma := leaves_of_expect_eq_ok startLeaves.terminated commaRead
        rcases ih.items comma.terminated othersRead with ⟨inside, insideLeaves, othersDerived⟩
        exact ⟨_, paren.trans (startLeaves.trans (comma.trans insideLeaves)),
          .tuple firstDerived othersDerived⟩
  · simp only [advance_bind, bind_eq_ok_iff, pure_eq_ok_iff] at taken
    rcases taken with ⟨elements, middle, elementsRead, rfl, rfl⟩
    have bracket := Leaves.front terminated inFront (by simp)
    rcases ih.items bracket.terminated elementsRead with ⟨inside, insideLeaves, elementsDerived⟩
    exact ⟨_, bracket.trans insideLeaves, .vector elementsDerived⟩
  · cases found : literal? kind with
    | none =>
        rw [found] at taken
        cases taken
    | some result =>
        rw [found] at taken
        cases result with
        | error error => cases taken
        | ok value =>
            simp only [advance_bind, pure_eq_ok_iff] at taken
            rcases taken with ⟨rfl, rfl⟩
            have denotes := literal?_eq_some_ok_iff.mp found
            exact ⟨_, .front terminated inFront (by rintro rfl; cases denotes), .literal denotes⟩

theorem items_succ (ih : Sound location fuel) {close : Symbol} {tokens rest : List Token}
    {trees : List Expr} (terminated : Terminated tokens)
    (taken : Parser.items location (fuel + 1) close tokens = .ok (trees, rest)) :
    ∃ taken, Leaves tokens (taken ++ [.symbol close]) rest ∧
      Derives location (.items trees) taken := by
  rw [Parser.items, bind_eq_ok_iff] at taken
  rcases taken with ⟨answer, middle, answered, taken⟩
  rcases accept_cases terminated answered with ⟨rfl, closed⟩ | ⟨rfl, rfl, _⟩
  · simp only [if_true, pure_eq_ok_iff] at taken
    rcases taken with ⟨rfl, rfl⟩
    exact ⟨[], closed, .none⟩
  · simp only [Bool.false_eq_true, if_false, bind_eq_ok_iff] at taken
    rcases taken with ⟨first, behindFirst, firstRead, answer, behindComma, answered, taken⟩
    rcases ih.ternary terminated firstRead with ⟨start, startLeaves, firstDerived⟩
    rcases accept_cases startLeaves.terminated answered with ⟨rfl, comma⟩ | ⟨rfl, rfl, _⟩
    · simp only [if_true, bind_eq_ok_iff, pure_eq_ok_iff] at taken
      rcases taken with ⟨others, behindList, othersRead, rfl, rfl⟩
      rcases ih.items comma.terminated othersRead with ⟨inside, insideLeaves, othersDerived⟩
      refine ⟨_, ?_, .more firstDerived othersDerived⟩
      simpa using startLeaves.trans (comma.trans insideLeaves)
    · simp only [Bool.false_eq_true, if_false, bind_eq_ok_iff, pure_eq_ok_iff] at taken
      rcases taken with ⟨_, behindClose, closeRead, rfl, rfl⟩
      have closed := leaves_of_expect_eq_ok startLeaves.terminated closeRead
      exact ⟨start, startLeaves.trans closed, .last firstDerived⟩

end Sound

/-! ## All functions -/

/-- The functions of the parser are sound with any fuel. -/
theorem sound (location : Option Location) (fuel : Nat) : Sound location fuel := by
  induction fuel with
  | zero =>
      constructor <;> intros <;> contradiction
  | succ fuel ih =>
      exact ⟨ih.ternary_succ, ih.binary_succ, ih.binaryTail_succ, ih.chain_succ,
        ih.chainTail_succ, ih.primary_succ, ih.items_succ⟩

end AnalyzerGlue.Expr.Parser
