import AnalyzerGlue.Expr.Parser

/-!
# Steps of the expression parser

What the small steps of the parser come to, once for all proofs about it.

The lists that matter are terminated: they end with the token for the end of
the text, which occurs nowhere else.  On them every step that takes a token
really moves on, and what it leaves is terminated again; `Leaves` records both.
-/

namespace AnalyzerGlue.Expr.Parser

variable {α β : Type}

/-! ## Sequences of steps -/

theorem bind_eq_ok_iff {step : Parser α} {next : α → Parser β} {tokens rest : List Token}
    {result : β} :
    (step >>= next) tokens = .ok (result, rest) ↔
      ∃ value middle, step tokens = .ok (value, middle) ∧
        next value middle = .ok (result, rest) := by
  change Except.bind (step tokens) _ = _ ↔ _
  cases step tokens with
  | error error => simp [Except.bind]
  | ok pair =>
      rcases pair with ⟨value, middle⟩
      simp [Except.bind, and_assoc]

theorem bind_eq_of_eq_ok {step : Parser α} {tokens middle : List Token} {value : α}
    (taken : step tokens = .ok (value, middle)) (next : α → Parser β) :
    (step >>= next) tokens = next value middle := by
  change Except.bind (step tokens) _ = _
  rw [taken]
  rfl

@[simp]
theorem pure_eq_ok_iff {value result : α} {tokens rest : List Token} :
    (pure value : Parser α) tokens = .ok (result, rest) ↔ value = result ∧ tokens = rest := by
  change Except.ok (value, tokens) = _ ↔ _
  simp

@[simp]
theorem peek_bind (next : Token → Parser α) (tokens : List Token) :
    (peek >>= next) tokens = next (front tokens) tokens :=
  rfl

@[simp]
theorem advance_bind (next : Unit → Parser α) (tokens : List Token) :
    (advance >>= next) tokens = next () (behind tokens) :=
  rfl

/-! ## Signs and words in front -/

theorem accept_of_front {sign : Symbol} {tokens : List Token}
    (inFront : (front tokens).kind = .symbol sign) :
    accept sign tokens = .ok (true, behind tokens) := by
  rw [accept, peek_bind, if_pos inFront]
  rfl

theorem accept_of_not_front {sign : Symbol} {tokens : List Token}
    (other : (front tokens).kind ≠ .symbol sign) :
    accept sign tokens = .ok (false, tokens) := by
  rw [accept, peek_bind, if_neg other]
  rfl

theorem expect_of_front {sign : Symbol} {tokens : List Token}
    (inFront : (front tokens).kind = .symbol sign) :
    expect sign tokens = .ok ((), behind tokens) := by
  rw [expect, peek_bind, if_pos inFront]
  rfl

theorem front_of_expect_eq_ok {sign : Symbol} {tokens rest : List Token}
    (taken : expect sign tokens = .ok ((), rest)) :
    (front tokens).kind = .symbol sign ∧ rest = behind tokens := by
  rw [expect, peek_bind] at taken
  split at taken
  · rename_i inFront
    cases taken
    exact ⟨inFront, rfl⟩
  · cases taken

theorem word_of_front {name : String} {tokens : List Token}
    (inFront : (front tokens).kind = .word name) :
    word tokens = .ok (name, behind tokens) := by
  rw [word, peek_bind, inFront]
  rfl

theorem front_of_word_eq_ok {name : String} {tokens rest : List Token}
    (taken : word tokens = .ok (name, rest)) :
    (front tokens).kind = .word name ∧ rest = behind tokens := by
  rw [word, peek_bind] at taken
  cases inFront : (front tokens).kind with
  | word found =>
      rw [inFront] at taken
      cases taken
      exact ⟨rfl, rfl⟩
  | int | real | bool | string | bytes | null | isIn | symbol | eof =>
      rw [inFront] at taken
      cases taken

/-! ## Terminated lists -/

/-- The kinds of some tokens. -/
def kinds (tokens : List Token) : List Lexeme :=
  tokens.map Token.kind

@[simp]
theorem kinds_cons (token : Token) (tokens : List Token) :
    kinds (token :: tokens) = token.kind :: kinds tokens :=
  rfl

/-- The lists whose last token is the end of the text, with no other end. -/
def Terminated : List Token → Prop
  | [] => False
  | [token] => token.kind = .eof
  | token :: next :: rest => token.kind ≠ .eof ∧ Terminated (next :: rest)

theorem terminated_append_singleton_iff {tokens : List Token} {last : Token} :
    Terminated (tokens ++ [last]) ↔
      last.kind = .eof ∧ ∀ token ∈ tokens, token.kind ≠ .eof := by
  induction tokens with
  | nil => simp [Terminated]
  | cons token tokens ih =>
      have step : Terminated (token :: (tokens ++ [last])) ↔
          token.kind ≠ .eof ∧ Terminated (tokens ++ [last]) := by
        cases tokens <;> rfl
      rw [List.cons_append, step, ih, List.forall_mem_cons]
      exact and_left_comm

/-- A terminated list with the end in front has no other token. -/
theorem Terminated.kinds_of_front {tokens : List Token} (terminated : Terminated tokens)
    (atEnd : (front tokens).kind = .eof) : kinds tokens = [.eof] := by
  match tokens with
  | [] => cases terminated
  | [last] => rw [kinds_cons, ← atEnd]; rfl
  | first :: next :: rest => exact absurd atEnd terminated.1

/-- What is left behind some kinds of tokens, which is terminated again. -/
structure Leaves (tokens : List Token) (taken : List Lexeme) (rest : List Token) : Prop where
  split : kinds tokens = taken ++ kinds rest
  terminated : Terminated rest

namespace Leaves

theorem refl {tokens : List Token} (terminated : Terminated tokens) :
    Leaves tokens [] tokens :=
  ⟨rfl, terminated⟩

theorem trans {tokens middle rest : List Token} {first second : List Lexeme}
    (before : Leaves tokens first middle) (behind : Leaves middle second rest) :
    Leaves tokens (first ++ second) rest :=
  ⟨by rw [before.split, behind.split, List.append_assoc], behind.terminated⟩

/-- Moving on takes the token in front, unless that is the end. -/
theorem front {tokens : List Token} {token : Lexeme} (terminated : Terminated tokens)
    (inFront : (front tokens).kind = token) (inside : token ≠ .eof) :
    Leaves tokens [token] (behind tokens) := by
  match tokens with
  | [] => cases terminated
  | [last] => exact absurd (inFront.symm.trans terminated) inside
  | first :: next :: rest => exact ⟨by rw [kinds_cons, ← inFront]; rfl, terminated.2⟩

end Leaves

/-- A sign that is accepted has been taken; otherwise nothing has. -/
theorem accept_cases {sign : Symbol} {tokens rest : List Token} {answer : Bool}
    (terminated : Terminated tokens) (answered : accept sign tokens = .ok (answer, rest)) :
    answer = true ∧ Leaves tokens [.symbol sign] rest ∨
      answer = false ∧ rest = tokens ∧ (front tokens).kind ≠ .symbol sign := by
  by_cases inFront : (front tokens).kind = .symbol sign
  · rw [accept_of_front inFront] at answered
    cases answered
    exact .inl ⟨rfl, .front terminated inFront (by simp)⟩
  · rw [accept_of_not_front inFront] at answered
    cases answered
    exact .inr ⟨rfl, rfl, inFront⟩

theorem leaves_of_expect_eq_ok {sign : Symbol} {tokens rest : List Token}
    (terminated : Terminated tokens) (taken : expect sign tokens = .ok ((), rest)) :
    Leaves tokens [.symbol sign] rest := by
  rcases front_of_expect_eq_ok taken with ⟨inFront, rfl⟩
  exact .front terminated inFront (by simp)

theorem leaves_of_word_eq_ok {name : String} {tokens rest : List Token}
    (terminated : Terminated tokens) (taken : word tokens = .ok (name, rest)) :
    Leaves tokens [.word name] rest := by
  rcases front_of_word_eq_ok taken with ⟨inFront, rfl⟩
  exact .front terminated inFront (by simp)

end AnalyzerGlue.Expr.Parser
