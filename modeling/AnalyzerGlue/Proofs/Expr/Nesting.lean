import AnalyzerGlue.Proofs.Expr.Grammar

/-!
# Brackets in expressions

`levelAfter` follows how many brackets are open.  It fails at a comma and at a
closing bracket that are in no brackets.  No expression fails, and each closes
all brackets that it opens.
-/

namespace AnalyzerGlue.Expr

/-- The number of open brackets behind a token, given the number before it. -/
def levelBehind (level : Nat) : Lexeme → Option Nat
  | .symbol .leftParen | .symbol .leftBracket => some (level + 1)
  | .symbol .rightParen | .symbol .rightBracket =>
      match level with
      | 0 => none
      | outer + 1 => some outer
  | .symbol .comma =>
      match level with
      | 0 => none
      | _ + 1 => some level
  | _ => some level

/-- The number of open brackets behind some tokens. -/
def levelAfter (level : Nat) : List Lexeme → Option Nat
  | [] => some level
  | token :: others =>
      match levelBehind level token with
      | some behind => levelAfter behind others
      | none => none

/-- Tokens behind which, from the given level on, the level is what it was before
them. -/
def KeepsLevel (least : Nat) (tokens : List Lexeme) : Prop :=
  ∀ level, least ≤ level → levelAfter level tokens = some level

namespace KeepsLevel

variable {least : Nat} {tokens others : List Lexeme}

theorem nil : KeepsLevel least [] :=
  fun _ _ => rfl

theorem mono {lower : Nat} (keeps : KeepsLevel lower tokens) (le : lower ≤ least) :
    KeepsLevel least tokens :=
  fun level bound => keeps level (Nat.le_trans le bound)

/-- The level behind other tokens is reached from the level that these keep. -/
theorem levelAfter_append (keeps : KeepsLevel least tokens) {level : Nat} (bound : least ≤ level)
    (others : List Lexeme) : levelAfter level (tokens ++ others) = levelAfter level others := by
  have reaches : ∀ {start : Nat} {front : List Lexeme},
      levelAfter start front = some level →
        levelAfter start (front ++ others) = levelAfter level others := by
    intro start front reached
    fun_induction levelAfter start front with
    | case1 =>
        cases reached
        rfl
    | case2 start token front behind step ih =>
        rw [List.cons_append, levelAfter, step]
        exact ih reached
    | case3 => cases reached
  exact reaches (keeps level bound)

theorem append (first : KeepsLevel least tokens) (second : KeepsLevel least others) :
    KeepsLevel least (tokens ++ others) := by
  intro level bound
  rw [first.levelAfter_append bound, second level bound]

theorem cons {token : Lexeme} (step : ∀ level, least ≤ level → levelBehind level token = some level)
    (behind : KeepsLevel least others) : KeepsLevel least (token :: others) := by
  intro level bound
  rw [levelAfter, step level bound]
  exact behind level bound

/-- What is in brackets may have commas. -/
theorem enclosed {opening closing : Lexeme}
    (opens : ∀ level, levelBehind level opening = some (level + 1))
    (closes : ∀ level, levelBehind (level + 1) closing = some level)
    (inside : KeepsLevel 1 tokens) : KeepsLevel 0 (opening :: (tokens ++ [closing])) := by
  intro level _
  rw [levelAfter, opens level]
  show levelAfter (level + 1) (tokens ++ [closing]) = some level
  rw [inside.levelAfter_append (Nat.le_add_left 1 level), levelAfter, closes level]
  rfl

theorem round (inside : KeepsLevel 1 tokens) :
    KeepsLevel 0 (.symbol .leftParen :: (tokens ++ [.symbol .rightParen])) :=
  inside.enclosed (fun _ => rfl) fun _ => rfl

theorem square (inside : KeepsLevel 1 tokens) :
    KeepsLevel 0 (.symbol .leftBracket :: (tokens ++ [.symbol .rightBracket])) :=
  inside.enclosed (fun _ => rfl) fun _ => rfl

/-- A comma has to be in brackets. -/
theorem comma (first : KeepsLevel 1 tokens) (second : KeepsLevel 1 others) :
    KeepsLevel 1 (tokens ++ .symbol .comma :: others) := by
  refine first.append (.cons ?_ second)
  intro level positive
  rcases Nat.exists_eq_add_one_of_ne_zero (Nat.ne_of_gt positive) with ⟨outer, rfl⟩
  rfl

end KeepsLevel

/-- The sign of an operator is a bracket only for calls and indices. -/
theorem levelBehind_sign {operator : Operator} (noCall : operator ≠ .call)
    (noIndex : operator ≠ .index) (level : Nat) :
    levelBehind level operator.sign = some level := by
  cases operator <;> simp_all [Operator.sign, levelBehind]

/-- The level from which on the tokens of a phrase keep it. -/
def Phrase.leastLevel : Phrase → Nat
  | .ternary _ | .level _ _ | .chain _ | .primary _ => 0
  | .items _ => 1

/-- Every expression keeps the level, and items keep it inside of brackets. -/
theorem keepsLevel_of_derives {location : Option Location} {phrase : Phrase}
    {tokens : List Lexeme} (derived : Derives location phrase tokens) :
    KeepsLevel phrase.leastLevel tokens := by
  induction derived with
  | plain _ ih | tighter _ _ _ ih | unsigned _ ih | single _ ih => exact ih
  | conditional _ _ _ test whenTrue whenFalse =>
      exact test.append (.cons (fun _ _ => rfl)
        (whenTrue.append (.cons (fun _ _ => rfl) whenFalse)))
  | @between operator power _ _ _ _ fixity _ _ before behind =>
      refine before.append (.cons (fun level _ => levelBehind_sign ?_ ?_ level) behind) <;>
        (rintro rfl; cases fixity)
  | @before operator _ _ fixity _ behind =>
      refine .cons (fun level _ => levelBehind_sign ?_ ?_ level) behind <;>
        (rintro rfl; cases fixity)
  | call _ _ _ before list => exact before.append list.round
  | index _ _ before inner => exact before.append (inner.mono (Nat.zero_le 1)).square
  | @access operator _ _ name fixity _ before =>
      refine before.append (.cons (fun level _ => levelBehind_sign ?_ ?_ level)
        (.cons (fun _ _ => rfl) .nil)) <;>
        (rintro rfl; cases fixity)
  | methodCall name _ _ before list =>
      exact before.append (.cons (fun _ _ => rfl) (.cons (fun _ _ => rfl) list.round))
  | name start parts =>
      refine .cons (fun _ _ => rfl) ?_
      induction parts with
      | nil => exact .nil
      | cons part parts ih => exact .cons (fun _ _ => rfl) (.cons (fun _ _ => rfl) ih)
  | literal denotes => cases denotes <;> exact .cons (fun _ _ => rfl) .nil
  | unit => exact KeepsLevel.nil.round
  | group _ inner => exact (inner.mono (Nat.zero_le 1)).round
  | tuple _ _ item list =>
      have inside := KeepsLevel.comma (item.mono (Nat.zero_le 1)) list
      have enclosed := inside.round
      rwa [List.append_assoc, List.cons_append] at enclosed
  | vector _ list => exact list.square
  | none => exact .nil
  | last _ inner => exact inner.mono (Nat.zero_le 1)
  | more _ _ inner list => exact .comma (inner.mono (Nat.zero_le 1)) list

end AnalyzerGlue.Expr
