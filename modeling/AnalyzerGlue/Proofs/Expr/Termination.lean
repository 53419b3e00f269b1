import AnalyzerGlue.Proofs.Expr.Fuel
import AnalyzerGlue.Proofs.Expr.Grammar
import AnalyzerGlue.Proofs.Token.Reading

/-!
# Reading expressions comes to an end

The last token of a list is never left behind, so the number of tokens left is
no measure there.  Reading still ends if the last token is none of those behind
which an operand is read at once: a sign before an operand, or an opening
parenthesis or bracket.  Any other token is either an operand by itself, and
then continues nothing, or starts no operand, and then reading one fails.

Eight steps for each token and a few more are enough, as for the lists that
derive an expression.  A list of one token behind which an operand is read uses
up any number of steps.
-/

namespace AnalyzerGlue.Expr.Parser

variable {α β : Type} {location : Option Location}

/-! ## The last token -/

/-- The tokens at the start of an expression behind which another one is read. -/
def opensOperand : Lexeme → Bool
  | .symbol .bang | .symbol .minus | .symbol .tilde
  | .symbol .leftParen | .symbol .leftBracket => true
  | _ => false

/-- Whether no operand is read behind the last token. -/
def Settled (tokens : List Token) : Prop :=
  ∀ last ∈ tokens.getLast?, opensOperand last.kind = false

theorem Settled.behind {tokens : List Token} (settled : Settled tokens) :
    Settled (behind tokens) := by
  match tokens with
  | [] => exact settled
  | [_] => exact settled
  | _ :: next :: rest =>
      intro last isLast
      apply settled last
      rwa [List.getLast?_cons_cons]

theorem length_behind_le (tokens : List Token) : (behind tokens).length ≤ tokens.length := by
  match tokens with
  | [] | [_] => exact Nat.le_refl _
  | _ :: _ :: _ => exact Nat.le_succ _

/-- The end of the text is in front of the empty list. -/
theorem length_pos_of_front {tokens : List Token} {kind : Lexeme}
    (inFront : (front tokens).kind = kind) (inside : kind ≠ .eof) : 0 < tokens.length := by
  cases tokens with
  | nil => exact absurd inFront.symm inside
  | cons token rest => exact Nat.succ_pos _

/-- Moving on from a token leaves fewer, unless it is the last one. -/
theorem Settled.behind_cases {tokens : List Token} {kind : Lexeme} (settled : Settled tokens)
    (inFront : (front tokens).kind = kind) (inside : kind ≠ .eof) :
    (Parser.behind tokens).length < tokens.length ∨
      Parser.behind tokens = tokens ∧ tokens.length = 1 ∧ opensOperand kind = false := by
  match tokens with
  | [] => exact absurd inFront.symm inside
  | [last] =>
      right
      rw [← inFront]
      exact ⟨rfl, rfl, settled last rfl⟩
  | _ :: _ :: _ =>
      left
      exact Nat.lt_succ_self _

/-! ## Answers other than running out of fuel -/

theorem bind_eq_of_eq_error {step : Parser α} {tokens : List Token} {error : ExprError}
    (fails : step tokens = .error error) (next : α → Parser β) :
    (step >>= next) tokens = .error error := by
  change Except.bind (step tokens) _ = _
  rw [fails]
  rfl

/-- Whether an answer is none of having run out of fuel, and leaves a settled
list of at most the given length. -/
def Ends (length : Nat) : Except ExprError (α × List Token) → Prop
  | .ok (_, rest) => Settled rest ∧ rest.length ≤ length
  | .error error => error ≠ .endless

namespace Ends

variable {length bound : Nat} {tokens : List Token}

theorem ne_endless {answer : Except ExprError (α × List Token)} (ends : Ends length answer) :
    answer ≠ .error .endless := by
  rintro rfl
  exact ends rfl

theorem mono {answer : Except ExprError (α × List Token)} (ends : Ends bound answer)
    (le : bound ≤ length) : Ends length answer := by
  match answer with
  | .ok _ => exact ⟨ends.1, Nat.le_trans ends.2 le⟩
  | .error _ => exact ends

theorem pure {value : α} (settled : Settled tokens) (le : tokens.length ≤ length) :
    Ends length ((Pure.pure value : Parser α) tokens) :=
  ⟨settled, le⟩

theorem bind {step : Parser α} {next : α → Parser β} (first : Ends bound (step tokens))
    (second : ∀ value rest, Settled rest → rest.length ≤ bound → Ends length (next value rest)) :
    Ends length ((step >>= next) tokens) := by
  change Ends length (Except.bind (step tokens) _)
  cases taken : step tokens with
  | error error =>
      rw [taken] at first
      exact first
  | ok pair =>
      rcases pair with ⟨value, rest⟩
      rw [taken] at first
      exact second value rest first.1 first.2

theorem accept {sign : Symbol} {next : Bool → Parser α}
    (taken : (front tokens).kind = .symbol sign → Ends length (next true (behind tokens)))
    (other : (front tokens).kind ≠ .symbol sign → Ends length (next false tokens)) :
    Ends length ((Parser.accept sign >>= next) tokens) := by
  by_cases inFront : (front tokens).kind = .symbol sign
  · rw [bind_eq_of_eq_ok (accept_of_front inFront)]
    exact taken inFront
  · rw [bind_eq_of_eq_ok (accept_of_not_front inFront)]
    exact other inFront

theorem expect {sign : Symbol} {next : Unit → Parser α}
    (taken : (front tokens).kind = .symbol sign → Ends length (next () (behind tokens))) :
    Ends length ((Parser.expect sign >>= next) tokens) := by
  by_cases inFront : (front tokens).kind = .symbol sign
  · rw [bind_eq_of_eq_ok (expect_of_front inFront)]
    exact taken inFront
  · have fails : Parser.expect sign tokens = .error (.expectedSymbol sign (front tokens)) := by
      rw [Parser.expect, peek_bind, if_neg inFront]
      rfl
    rw [bind_eq_of_eq_error fails]
    exact ExprError.noConfusion

theorem word {next : String → Parser α}
    (taken : ∀ name, (front tokens).kind = .word name → Ends length (next name (behind tokens))) :
    Ends length ((Parser.word >>= next) tokens) := by
  cases inFront : (front tokens).kind with
  | word name =>
      rw [bind_eq_of_eq_ok (word_of_front inFront)]
      exact taken name inFront
  | int | real | bool | string | bytes | null | isIn | symbol | eof =>
      have fails : Parser.word tokens = .error (.expectedWord (front tokens)) := by
        rw [Parser.word, peek_bind, inFront]
        rfl
      rw [bind_eq_of_eq_error fails]
      exact ExprError.noConfusion

end Ends

/-! ## Tokens that start no operand -/

theorem opensOperand_of_beforeOperand? {kind : Lexeme} {operator : Operator}
    (before : Operator.beforeOperand? kind = some operator) : opensOperand kind = true := by
  unfold Operator.beforeOperand? at before
  split at before <;> first | rfl | cases before

/-- Of the signs between two operands, only the minus starts one. -/
theorem startsExpr_of_betweenOperands? {kind : Lexeme} {operator : Operator} {power : Nat}
    (between : Operator.betweenOperands? kind = some (operator, power))
    (idle : opensOperand kind = false) : startsExpr kind = false := by
  unfold Operator.betweenOperands? at between
  split at between <;> first | rfl | cases idle | cases between

section Refusal

variable {fuel : Nat} {tokens : List Token}

theorem primary_of_not_startsExpr (refused : startsExpr (front tokens).kind = false) :
    primary location (fuel + 1) tokens = .error (.expectedOperand (front tokens)) := by
  rw [primary, peek_bind]
  generalize (front tokens).kind = kind at refused
  split
  · cases refused
  · cases refused
  · cases refused
  · have noLiteral : literal? kind = none := by
      cases kind <;> first | rfl | cases refused
    rw [noLiteral]
    rfl

theorem chain_of_not_startsExpr (refused : startsExpr (front tokens).kind = false) :
    chain location (fuel + 2) tokens = .error (.expectedOperand (front tokens)) := by
  rw [chain]
  exact bind_eq_of_eq_error (primary_of_not_startsExpr refused) _

theorem binary_of_not_startsExpr (least : Nat)
    (refused : startsExpr (front tokens).kind = false) :
    binary location (fuel + 3) least tokens = .error (.expectedOperand (front tokens)) := by
  have unsigned : Operator.beforeOperand? (front tokens).kind = none := by
    rw [startsExpr, Bool.or_eq_false_iff, Option.isSome_eq_false_iff] at refused
    exact Option.isNone_iff_eq_none.mp refused.2
  rw [binary, peek_bind, unsigned]
  exact bind_eq_of_eq_error (chain_of_not_startsExpr refused) _

theorem ternary_of_not_startsExpr (refused : startsExpr (front tokens).kind = false) :
    ternary location (fuel + 4) tokens = .error (.expectedOperand (front tokens)) := by
  rw [ternary]
  exact bind_eq_of_eq_error (binary_of_not_startsExpr 0 refused) _

end Refusal

/-! ## One step of each function -/

theorem ne_endless_of_literal? {kind : Lexeme} {error : ExprError}
    (denoted : literal? kind = some (.error error)) : error ≠ .endless := by
  cases kind with
  | int value =>
      rw [literal?] at denoted
      split at denoted
      · cases denoted
      · cases denoted
        exact ExprError.noConfusion
  | word | real | bool | string | bytes | null | isIn | symbol | eof => cases denoted

/-- Taking the parts of a name needs fewer steps than there are tokens. -/
theorem path_ends {fuel : Nat} {start : String} {tokens : List Token} (settled : Settled tokens)
    (enough : tokens.length < fuel) : Ends tokens.length (path fuel start tokens) := by
  induction fuel generalizing start tokens with
  | zero => exact absurd enough (Nat.not_lt_zero _)
  | succ fuel ih =>
      rw [path]
      apply Ends.accept
      · intro colons
        rw [if_pos rfl]
        apply Ends.word
        intro part isWord
        -- A last double colon would be read again, and it is no word.
        rcases settled.behind_cases colons (by simp) with shorter | ⟨same, _⟩
        · have le := length_behind_le (behind tokens)
          have ends := @ih (start ++ "::" ++ part) _ settled.behind.behind (by omega)
          exact ends.mono (by omega)
        · rw [same, colons] at isWord
          cases isWord
      · intro _
        exact .pure settled (Nat.le_refl _)

/-- What the functions of the parser guarantee when they have the given fuel. -/
structure Ending (location : Option Location) (fuel : Nat) : Prop where
  ternary {tokens : List Token} :
    Settled tokens → 8 * tokens.length + 4 ≤ fuel →
      Ends tokens.length (ternary location fuel tokens)
  binary {tokens : List Token} (least : Nat) :
    Settled tokens → 8 * tokens.length + 3 ≤ fuel →
      Ends tokens.length (binary location fuel least tokens)
  binaryTail {tokens : List Token} (least : Nat) (left : Expr) :
    Settled tokens → 8 * tokens.length + 2 ≤ fuel →
      Ends tokens.length (binaryTail location fuel least left tokens)
  chain {tokens : List Token} :
    Settled tokens → 8 * tokens.length + 2 ≤ fuel →
      Ends tokens.length (chain location fuel tokens)
  chainTail {tokens : List Token} (expr : Expr) :
    Settled tokens → 8 * tokens.length + 1 ≤ fuel →
      Ends tokens.length (chainTail location fuel expr tokens)
  primary {tokens : List Token} :
    Settled tokens → 8 * tokens.length + 1 ≤ fuel →
      Ends tokens.length (primary location fuel tokens)
  items {tokens : List Token} (close : Symbol) (apart : close ≠ .comma) :
    Settled tokens → 8 * tokens.length + 5 ≤ fuel →
      Ends tokens.length (items location fuel close tokens)

namespace Ending

variable {fuel : Nat} {tokens : List Token} {kind : Lexeme}

/-! Behind a token in front, reading an operand ends: either there are fewer
tokens left, or the token is the last one and is refused as an operand. -/

theorem binary_behind (ih : Ending location fuel) (least : Nat) (settled : Settled tokens)
    (inFront : (front tokens).kind = kind) (inside : kind ≠ .eof)
    (refused : opensOperand kind = false → startsExpr kind = false)
    (enough : 8 * tokens.length ≤ fuel + 5) :
    Ends (tokens.length - 1) (Parser.binary location fuel least (behind tokens)) := by
  rcases settled.behind_cases inFront inside with shorter | ⟨same, single, idle⟩
  · exact (ih.binary least settled.behind (by omega)).mono (by omega)
  · rcases Nat.exists_eq_add_of_le' (show 3 ≤ fuel by omega) with ⟨fuel, rfl⟩
    rw [same, binary_of_not_startsExpr least (by rw [inFront]; exact refused idle)]
    exact ExprError.noConfusion

theorem ternary_behind (ih : Ending location fuel) (settled : Settled tokens)
    (inFront : (front tokens).kind = kind) (inside : kind ≠ .eof)
    (refused : opensOperand kind = false → startsExpr kind = false)
    (enough : 8 * tokens.length ≤ fuel + 4) :
    Ends (tokens.length - 1) (Parser.ternary location fuel (behind tokens)) := by
  rcases settled.behind_cases inFront inside with shorter | ⟨same, single, idle⟩
  · exact (ih.ternary settled.behind (by omega)).mono (by omega)
  · rcases Nat.exists_eq_add_of_le' (show 4 ≤ fuel by omega) with ⟨fuel, rfl⟩
    rw [same, ternary_of_not_startsExpr (by rw [inFront]; exact refused idle)]
    exact ExprError.noConfusion

theorem items_behind (ih : Ending location fuel) (close : Symbol) (apart : close ≠ .comma)
    (settled : Settled tokens) (inFront : (front tokens).kind = kind) (inside : kind ≠ .eof)
    (free : kind ≠ .symbol close)
    (refused : opensOperand kind = false → startsExpr kind = false)
    (enough : 8 * tokens.length ≤ fuel + 3) :
    Ends (tokens.length - 1) (Parser.items location fuel close (behind tokens)) := by
  rcases settled.behind_cases inFront inside with shorter | ⟨same, single, idle⟩
  · exact (ih.items close apart settled.behind (by omega)).mono (by omega)
  · rcases Nat.exists_eq_add_of_le' (show 5 ≤ fuel by omega) with ⟨fuel, rfl⟩
    have notClosed : (front tokens).kind ≠ .symbol close := by rwa [inFront]
    have fails : Parser.ternary location (fuel + 4) tokens =
        .error (.expectedOperand (front tokens)) :=
      ternary_of_not_startsExpr (by rw [inFront]; exact refused idle)
    rw [same, Parser.items, bind_eq_of_eq_ok (accept_of_not_front notClosed),
      if_neg Bool.false_ne_true, bind_eq_of_eq_error fails]
    exact ExprError.noConfusion

theorem ternary_succ (ih : Ending location fuel) (settled : Settled tokens)
    (enough : 8 * tokens.length + 4 ≤ fuel + 1) :
    Ends tokens.length (Parser.ternary location (fuel + 1) tokens) := by
  rw [Parser.ternary]
  apply (ih.binary 0 settled (by omega)).bind
  intro condition middle middleSettled middleLe
  apply Ends.accept
  · intro mark
    rw [if_pos rfl]
    apply (ih.ternary_behind middleSettled mark (by simp) (fun _ => rfl) (by omega)).bind
    intro yes behindYes yesSettled yesLe
    apply Ends.expect
    intro colon
    apply (ih.ternary_behind yesSettled colon (by simp) (fun _ => rfl) (by omega)).bind
    intro no rest restSettled restLe
    exact .pure restSettled (by omega)
  · intro _
    exact .pure middleSettled middleLe

theorem binary_succ (ih : Ending location fuel) (least : Nat) (settled : Settled tokens)
    (enough : 8 * tokens.length + 3 ≤ fuel + 1) :
    Ends tokens.length (Parser.binary location (fuel + 1) least tokens) := by
  rw [Parser.binary, peek_bind]
  cases sign : Operator.beforeOperand? (front tokens).kind with
  | none =>
      apply (ih.chain settled (by omega)).bind
      intro left middle middleSettled middleLe
      exact (ih.binaryTail least left middleSettled (by omega)).mono middleLe
  | some operator =>
      have opens : opensOperand (front tokens).kind = true :=
        opensOperand_of_beforeOperand? sign
      have inside : (front tokens).kind ≠ .eof := by
        intro atEnd
        rw [atEnd] at opens
        cases opens
      have refused : opensOperand (front tokens).kind = false →
          startsExpr (front tokens).kind = false := by
        intro idle
        rw [opens] at idle
        cases idle
      simp only [advance_bind]
      apply (ih.binary_behind signPower settled rfl inside refused (by omega)).bind
      intro operand middle middleSettled middleLe
      exact (ih.binaryTail least _ middleSettled (by omega)).mono (by omega)

theorem binaryTail_succ (ih : Ending location fuel) (least : Nat) (left : Expr)
    (settled : Settled tokens) (enough : 8 * tokens.length + 2 ≤ fuel + 1) :
    Ends tokens.length (Parser.binaryTail location (fuel + 1) least left tokens) := by
  rw [Parser.binaryTail, peek_bind]
  cases sign : Operator.betweenOperands? (front tokens).kind with
  | none => exact .pure settled (Nat.le_refl _)
  | some pair =>
      rcases pair with ⟨operator, power⟩
      by_cases loose : power < least
      · simp only [if_pos loose]
        exact .pure settled (Nat.le_refl _)
      · have inside : (front tokens).kind ≠ .eof := by
          intro atEnd
          rw [atEnd] at sign
          cases sign
        have positive := length_pos_of_front rfl inside
        simp only [if_neg loose, advance_bind]
        apply (ih.binary_behind (power + 1) settled rfl inside
          (startsExpr_of_betweenOperands? sign) (by omega)).bind
        intro right middle middleSettled middleLe
        exact (ih.binaryTail least _ middleSettled (by omega)).mono (by omega)

theorem chain_succ (ih : Ending location fuel) (settled : Settled tokens)
    (enough : 8 * tokens.length + 2 ≤ fuel + 1) :
    Ends tokens.length (Parser.chain location (fuel + 1) tokens) := by
  rw [Parser.chain]
  apply (ih.primary settled (by omega)).bind
  intro first middle middleSettled middleLe
  exact (ih.chainTail first middleSettled (by omega)).mono middleLe

/-- Going on behind a sign that is followed by the name of a member.  The sign
itself is no name, so that it cannot be the last token. -/
theorem access_ends {sign : Symbol} {next : String → Parser Expr} (settled : Settled tokens)
    (inFront : (front tokens).kind = .symbol sign)
    (goesOn : ∀ name rest, Settled rest → rest.length < tokens.length →
      Ends tokens.length (next name rest)) :
    Ends tokens.length ((Parser.word >>= next) (behind tokens)) := by
  apply Ends.word
  intro name isWord
  rcases settled.behind_cases inFront (by simp) with shorter | ⟨same, _⟩
  · have le := length_behind_le (behind tokens)
    exact goesOn name _ settled.behind.behind (by omega)
  · rw [same, inFront] at isWord
    cases isWord

theorem chainTail_succ (ih : Ending location fuel) (expr : Expr) (settled : Settled tokens)
    (enough : 8 * tokens.length + 1 ≤ fuel + 1) :
    Ends tokens.length (Parser.chainTail location (fuel + 1) expr tokens) := by
  rw [Parser.chainTail, peek_bind]
  generalize inFront : (front tokens).kind = kind
  have goesOn (expr : Expr) {rest : List Token} (restSettled : Settled rest)
      (shorter : rest.length < tokens.length) :
      Ends tokens.length (Parser.chainTail location fuel expr rest) :=
    (ih.chainTail expr restSettled (by omega)).mono (Nat.le_of_lt shorter)
  split
  · have positive := length_pos_of_front inFront (by simp)
    simp only [advance_bind]
    apply (ih.items_behind .rightParen (by simp) settled inFront (by simp) (by simp)
      (by rintro ⟨⟩) (by omega)).bind
    intro arguments middle middleSettled middleLe
    exact goesOn _ middleSettled (by omega)
  · have positive := length_pos_of_front inFront (by simp)
    simp only [advance_bind]
    apply (ih.ternary_behind settled inFront (by simp) (by rintro ⟨⟩) (by omega)).bind
    intro index middle middleSettled middleLe
    apply Ends.expect
    intro _
    have le := length_behind_le middle
    exact goesOn _ middleSettled.behind (by omega)
  · simp only [advance_bind]
    apply access_ends settled inFront
    intro name rest restSettled shorter
    apply Ends.accept
    · intro paren
      rw [if_pos rfl]
      have positive := length_pos_of_front paren (by simp)
      apply (ih.items_behind .rightParen (by simp) restSettled paren (by simp) (by simp)
        (by rintro ⟨⟩) (by omega)).bind
      intro arguments middle middleSettled middleLe
      exact goesOn _ middleSettled (by omega)
    · intro _
      exact goesOn _ restSettled shorter
  · simp only [advance_bind]
    apply access_ends settled inFront
    intro name rest restSettled shorter
    exact goesOn _ restSettled shorter
  · simp only [advance_bind]
    apply access_ends settled inFront
    intro name rest restSettled shorter
    exact goesOn _ restSettled shorter
  · exact .pure settled (Nat.le_refl _)

theorem primary_succ (ih : Ending location fuel) (settled : Settled tokens)
    (enough : 8 * tokens.length + 1 ≤ fuel + 1) :
    Ends tokens.length (Parser.primary location (fuel + 1) tokens) := by
  rw [Parser.primary, peek_bind]
  generalize inFront : (front tokens).kind = kind
  have le := length_behind_le tokens
  split
  · have positive := length_pos_of_front inFront (by simp)
    apply Ends.word
    intro start _
    apply (path_ends settled.behind (by omega)).bind
    intro name rest restSettled restLe
    exact .pure restSettled (by omega)
  · have positive := length_pos_of_front inFront (by simp)
    simp only [advance_bind]
    apply Ends.accept
    · intro _
      have closeLe := length_behind_le (behind tokens)
      exact .pure settled.behind.behind (by omega)
    · intro _
      rw [if_neg Bool.false_ne_true]
      apply (ih.ternary_behind settled inFront (by simp) (by rintro ⟨⟩) (by omega)).bind
      intro first middle middleSettled middleLe
      have middleBehind := length_behind_le middle
      apply Ends.accept
      · intro _
        exact .pure middleSettled.behind (by omega)
      · intro _
        rw [if_neg Bool.false_ne_true]
        apply Ends.expect
        intro comma
        apply (ih.items_behind .rightParen (by simp) middleSettled comma (by simp) (by simp)
          (fun _ => rfl) (by omega)).bind
        intro others rest restSettled restLe
        exact .pure restSettled (by omega)
  · have positive := length_pos_of_front inFront (by simp)
    simp only [advance_bind]
    apply (ih.items_behind .rightBracket (by simp) settled inFront (by simp) (by simp)
      (by rintro ⟨⟩) (by omega)).bind
    intro elements rest restSettled restLe
    exact .pure restSettled (by omega)
  · cases denoted : literal? kind with
    | none => exact ExprError.noConfusion
    | some result =>
        cases result with
        | ok value => exact .pure settled.behind le
        | error error => exact ne_endless_of_literal? denoted

theorem items_succ (ih : Ending location fuel) (close : Symbol) (apart : close ≠ .comma)
    (settled : Settled tokens) (enough : 8 * tokens.length + 5 ≤ fuel + 1) :
    Ends tokens.length (Parser.items location (fuel + 1) close tokens) := by
  rw [Parser.items]
  apply Ends.accept
  · intro _
    exact .pure settled.behind (length_behind_le tokens)
  · intro _
    rw [if_neg Bool.false_ne_true]
    apply (ih.ternary settled (by omega)).bind
    intro first middle middleSettled middleLe
    apply Ends.accept
    · intro comma
      rw [if_pos rfl]
      have free : Lexeme.symbol .comma ≠ .symbol close := by
        intro same
        exact apart (Lexeme.symbol.inj same).symm
      apply (ih.items_behind close apart middleSettled comma (by simp) free (fun _ => rfl)
        (by omega)).bind
      intro others rest restSettled restLe
      exact .pure restSettled (by omega)
    · intro _
      rw [if_neg Bool.false_ne_true]
      apply Ends.expect
      intro _
      have le := length_behind_le middle
      exact .pure middleSettled.behind (by omega)

end Ending

/-- On settled lists no function of the parser runs out of the fuel that is
enough for it. -/
theorem ending (location : Option Location) (fuel : Nat) : Ending location fuel := by
  induction fuel with
  | zero =>
      constructor
      all_goals intros; omega
  | succ fuel ih =>
      constructor
      · exact ih.ternary_succ
      · exact ih.binary_succ
      · exact ih.binaryTail_succ
      · exact ih.chain_succ
      · exact ih.chainTail_succ
      · exact ih.primary_succ
      · exact ih.items_succ

/-- A whole settled list has an answer with eight steps for each token and a
few more. -/
theorem whole_ne_endless {tokens : List Token} {fuel : Nat} (settled : Settled tokens)
    (enough : fuelFor tokens.length ≤ fuel) : whole location fuel tokens ≠ .error .endless := by
  have sufficient : 8 * tokens.length + 4 ≤ fuel := by
    unfold fuelFor at enough
    omega
  have ends : Ends tokens.length (whole location fuel tokens) := by
    rw [whole]
    apply ((ending location fuel).ternary settled sufficient).bind
    intro expr rest restSettled restLe
    rw [peek_bind]
    by_cases atEnd : (front rest).kind = .eof
    · rw [if_pos atEnd]
      exact .pure restSettled restLe
    · rw [if_neg atEnd]
      exact ExprError.noConfusion
  exact ends.ne_endless

/-! ## Lists that are never read to their end -/

section Endless

variable {token : Token}

/-- A sign before an operand is read again as the operand. -/
theorem binary_of_sign {operator : Operator} (least fuel : Nat)
    (sign : Operator.beforeOperand? token.kind = some operator) :
    binary location fuel least [token] = .error .endless := by
  induction fuel generalizing least with
  | zero => rfl
  | succ fuel ih =>
      rw [binary, peek_bind, front, sign]
      simp only [advance_bind]
      exact bind_eq_of_eq_error (ih signPower) _

/-- What the functions of the parser do with a single opening token. -/
structure Stalls (location : Option Location) (token : Token) (fuel : Nat) : Prop where
  ternary : ternary location fuel [token] = .error .endless
  binary (least : Nat) : binary location fuel least [token] = .error .endless
  chain : chain location fuel [token] = .error .endless
  primary : primary location fuel [token] = .error .endless
  items {close : Symbol} : token.kind ≠ .symbol close →
    items location fuel close [token] = .error .endless

/-- An opening parenthesis or bracket is read again as what it encloses. -/
theorem stalls_of_opening
    (opening : token.kind = .symbol .leftParen ∨ token.kind = .symbol .leftBracket) (fuel : Nat) :
    Stalls location token fuel := by
  induction fuel with
  | zero => exact ⟨rfl, fun _ => rfl, rfl, rfl, fun _ => rfl⟩
  | succ fuel ih =>
      constructor
      · rw [ternary]
        exact bind_eq_of_eq_error (ih.binary 0) _
      · intro least
        have unsigned : Operator.beforeOperand? token.kind = none := by
          rcases opening with paren | bracket
          · rw [paren]
            rfl
          · rw [bracket]
            rfl
        rw [binary, peek_bind, front, unsigned]
        exact bind_eq_of_eq_error ih.chain _
      · rw [chain]
        exact bind_eq_of_eq_error ih.primary _
      · rw [primary, peek_bind, front]
        rcases opening with paren | bracket
        · have notClosed : (front [token]).kind ≠ .symbol .rightParen := by
            rw [front, paren]
            simp
          rw [paren]
          simp only [advance_bind, behind]
          rw [bind_eq_of_eq_ok (accept_of_not_front notClosed), if_neg Bool.false_ne_true]
          exact bind_eq_of_eq_error ih.ternary _
        · rw [bracket]
          simp only [advance_bind, behind]
          exact bind_eq_of_eq_error (ih.items (by rw [bracket]; simp)) _
      · intro close apart
        have notClosed : (front [token]).kind ≠ .symbol close := apart
        rw [items, bind_eq_of_eq_ok (accept_of_not_front notClosed), if_neg Bool.false_ne_true]
        exact bind_eq_of_eq_error ih.ternary _

/-- A single token behind which an operand is read uses up any fuel. -/
theorem whole_of_opensOperand (opens : opensOperand token.kind = true) (fuel : Nat) :
    whole location fuel [token] = .error .endless := by
  have endless : ternary location fuel [token] = .error .endless := by
    cases sign : Operator.beforeOperand? token.kind with
    | some operator =>
        cases fuel with
        | zero => rfl
        | succ fuel =>
            rw [ternary]
            exact bind_eq_of_eq_error (binary_of_sign 0 fuel sign) _
    | none =>
        apply (stalls_of_opening _ fuel).ternary
        generalize token.kind = kind at opens sign
        unfold opensOperand at opens
        split at opens
        · cases sign
        · cases sign
        · cases sign
        · exact .inl rfl
        · exact .inr rfl
        · cases opens
  exact bind_eq_of_eq_error endless _

end Endless

end AnalyzerGlue.Expr.Parser

namespace AnalyzerGlue.Expr

open AnalyzerGlue.Expr.Parser

/-- Texts are cut into settled lists, since the end of the text comes last. -/
theorem settled_of_tokenize {text : List Char} {tokens : List Token}
    (read : Token.tokenize text = .ok tokens) : Settled tokens := by
  rcases Token.spells_of_tokenize_eq_ok read with ⟨before, rfl, _⟩
  intro last isLast
  rw [List.getLast?_concat] at isLast
  cases isLast
  rfl

theorem ofTokens_ne_endless {location : Option Location} {tokens : List Token}
    (settled : Settled tokens) : ofTokens tokens location ≠ .error .endless := by
  have answered : whole location (fuelFor tokens.length) tokens ≠ .error .endless :=
    whole_ne_endless settled (Nat.le_refl _)
  rw [ofTokens]
  cases read : whole location (fuelFor tokens.length) tokens with
  | ok pair => simp
  | error error =>
      intro endless
      cases endless
      exact answered read

/-- Reading a list ends if no operand is read behind its last token, and all
fuel from some amount on gives the same answer.  This holds for the tokens of
every text.  A single token behind which an operand is read uses up any amount
of fuel. -/
theorem ofTokens_ends (location : Option Location) :
    (∀ tokens, Settled tokens →
      ofTokens tokens location ≠ .error .endless ∧
      ∀ fuel, fuelFor tokens.length ≤ fuel →
        whole location fuel tokens ≠ .error .endless ∧
          whole location fuel tokens = whole location (fuelFor tokens.length) tokens) ∧
    (∀ text tokens, Token.tokenize text = .ok tokens →
      ofTokens tokens location ≠ .error .endless) ∧
    ∀ token, opensOperand token.kind = true →
      ∀ fuel, whole location fuel [token] = .error .endless := by
  constructor
  · intro tokens settled
    constructor
    · exact ofTokens_ne_endless settled
    · intro fuel enough
      constructor
      · exact whole_ne_endless settled enough
      · exact whole_eq_of_le enough (whole_ne_endless settled (Nat.le_refl _))
  · constructor
    · intro text tokens read
      exact ofTokens_ne_endless (settled_of_tokenize read)
    · intro token opens fuel
      exact whole_of_opensOperand opens fuel

/-- The tokens of `f(x,`, cut behind the comma, and a single minus. -/
theorem ofTokens_ends_cut :
    let tokens : List Token :=
      [⟨.word "f", 1⟩, ⟨.symbol .leftParen, 2⟩, ⟨.word "x", 3⟩, ⟨.symbol .comma, 4⟩]
    Settled tokens ∧ ofTokens tokens none ≠ .error .endless ∧
      ∀ fuel, whole none fuel [⟨.symbol .minus, 1⟩] = .error .endless := by
  intro tokens
  have settled : Settled tokens := by
    intro last isLast
    cases isLast
    rfl
  rcases ofTokens_ends none with ⟨ends, _, endless⟩
  exact ⟨settled, (ends tokens settled).1, endless _ rfl⟩

end AnalyzerGlue.Expr
