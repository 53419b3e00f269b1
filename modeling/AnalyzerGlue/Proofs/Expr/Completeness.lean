import AnalyzerGlue.Proofs.Expr.Soundness

/-!
# What is derived is returned by the parser

Each rule of the grammar is followed by the functions of the parser: if the
tokens of the parts are read as their trees, then the tokens of the whole are
read as its tree.  What is left must not continue the phrase; and the fuel has
to suffice, for which eight steps for each token and a few more are enough.

A level and a chain are left-recursive in the grammar and loops in the parser.
They are stated as equations between two states of the parser: reading their
tokens comes to entering the loop behind them, with their tree at hand.
-/

namespace AnalyzerGlue.Expr.Parser

variable {location : Option Location}

/-! ## Beginnings of lists -/

/-- Whether tokens of the given kinds come before the rest, which is not empty. -/
def Begins (tokens : List Token) (taken : List Lexeme) (rest : List Token) : Prop :=
  ∃ start, tokens = start ++ rest ∧ kinds start = taken ∧ rest ≠ []

namespace Begins

theorem eq_of_nil {tokens rest : List Token} (begins : Begins tokens [] rest) :
    tokens = rest := by
  rcases begins with ⟨start, rfl, isNil, _⟩
  rw [kinds, List.map_eq_nil_iff] at isNil
  rw [isNil, List.nil_append]

theorem append {tokens rest : List Token} {first second : List Lexeme}
    (begins : Begins tokens (first ++ second) rest) :
    ∃ middle, Begins tokens first middle ∧ Begins middle second rest := by
  rcases begins with ⟨start, rfl, split, notNil⟩
  rcases List.map_eq_append_iff.mp split with ⟨before, behind, rfl, isFirst, isSecond⟩
  refine ⟨behind ++ rest, ⟨before, List.append_assoc _ _ _, isFirst, ?_⟩,
    ⟨behind, rfl, isSecond, notNil⟩⟩
  simp [notNil]

theorem cons {tokens rest : List Token} {token : Lexeme} {taken : List Lexeme}
    (begins : Begins tokens (token :: taken) rest) :
    (front tokens).kind = token ∧ Begins (behind tokens) taken rest := by
  rcases begins with ⟨start, rfl, split, notNil⟩
  rcases List.map_eq_cons_iff.mp split with ⟨first, others, rfl, isFirst, isTaken⟩
  refine ⟨isFirst, others, ?_, isTaken, notNil⟩
  rcases List.exists_cons_of_ne_nil (show others ++ rest ≠ [] by simp [notNil]) with
    ⟨next, left, isCons⟩
  rw [List.cons_append, isCons]
  rfl

end Begins

/-! ## Leaving the loops -/

/-- The tokens that can stand behind a whole expression. -/
def endsExpr : Lexeme → Bool
  | .symbol .rightParen | .symbol .rightBracket | .symbol .comma | .symbol .colon | .eof => true
  | _ => false

/-- The tokens that continue a chain, or the name at its start. -/
def continuesChain : Lexeme → Bool
  | .symbol .leftParen | .symbol .leftBracket | .symbol .dot | .symbol .dotQuestion
  | .symbol .questionDot | .symbol .doubleColon => true
  | _ => false

theorem not_continuesChain_of_between {operator : Operator} {power : Nat}
    (fixity : operator.fixity = .between power) : continuesChain operator.sign = false := by
  cases operator <;> simp_all [Operator.fixity, Operator.sign, continuesChain]

theorem not_continuesChain_of_endsExpr {token : Lexeme} (ends : endsExpr token = true) :
    continuesChain token = false := by
  unfold endsExpr at ends
  split at ends <;> simp_all [continuesChain]

theorem stopsBelow_of_endsExpr {tokens : List Token}
    (ends : endsExpr (front tokens).kind = true) (power : Nat) : StopsBelow power tokens := by
  intro operator found inFront
  rw [(betweenOperands?_eq_some_iff.mp inFront).2] at ends
  cases operator <;> cases ends

/-- The loop for operators ends before a token that is no operator for it. -/
theorem binaryTail_of_stopsBelow {fuel least : Nat} {tree : Expr} {tokens : List Token}
    (enough : 1 ≤ fuel) (stops : StopsBelow least tokens) :
    binaryTail location fuel least tree tokens = .ok (tree, tokens) := by
  rcases Nat.exists_eq_succ_of_ne_zero (Nat.ne_of_gt enough) with ⟨fuel, rfl⟩
  rw [binaryTail, peek_bind]
  cases inFront : Operator.betweenOperands? (front tokens).kind with
  | none => rfl
  | some pair =>
      have loose := stops pair.1 pair.2 inFront
      simp only [if_pos loose]
      rfl

/-- The loop for chains ends before a token that does not continue them. -/
theorem chainTail_of_not_continuesChain {fuel : Nat} {tree : Expr} {tokens : List Token}
    (enough : 1 ≤ fuel) (stops : continuesChain (front tokens).kind = false) :
    chainTail location fuel tree tokens = .ok (tree, tokens) := by
  rcases Nat.exists_eq_succ_of_ne_zero (Nat.ne_of_gt enough) with ⟨fuel, rfl⟩
  rw [chainTail, peek_bind]
  generalize (front tokens).kind = kind at stops
  split
  · cases stops
  · cases stops
  · cases stops
  · cases stops
  · cases stops
  · rfl

/-! ## What reading a phrase comes to -/

/-- How the parser reads the tokens of a phrase.  Behind a level or a chain it
is in the loop for what may follow, with at most one step less for each token. -/
def Complete (location : Option Location) : Phrase → List Lexeme → Prop
  | .ternary tree, taken => ∀ {fuel : Nat} {tokens rest : List Token},
      8 * taken.length + 4 ≤ fuel → Begins tokens taken rest →
      endsExpr (front rest).kind = true →
      ternary location fuel tokens = .ok (tree, rest)
  | .level power tree, taken => ∀ {fuel least : Nat} {tokens rest : List Token},
      8 * taken.length + 3 ≤ fuel → Begins tokens taken rest → least ≤ power →
      continuesChain (front rest).kind = false → StopsBelow (power + 1) rest →
      ∃ left, fuel ≤ left + taken.length ∧
        binary location fuel least tokens = binaryTail location left least tree rest
  | .chain tree, taken => ∀ {fuel : Nat} {tokens rest : List Token},
      8 * taken.length + 2 ≤ fuel → Begins tokens taken rest →
      (front rest).kind ≠ .symbol .doubleColon →
      (EndsInMember taken → (front rest).kind ≠ .symbol .leftParen) →
      ∃ left, fuel ≤ left + taken.length ∧
        chain location fuel tokens = chainTail location left tree rest
  | .primary tree, taken => ∀ {fuel : Nat} {tokens rest : List Token},
      8 * taken.length + 1 ≤ fuel → Begins tokens taken rest →
      (front rest).kind ≠ .symbol .doubleColon →
      primary location fuel tokens = .ok (tree, rest)
  | .items trees, taken => ∀ {fuel : Nat} {close : Symbol} {tokens rest : List Token},
      8 * taken.length + 5 ≤ fuel → Begins tokens (taken ++ [.symbol close]) rest →
      close = .rightParen ∨ close = .rightBracket →
      items location fuel close tokens = .ok (trees, rest)

namespace Complete

/-- A level that ends before a token that is no operator for it is read as its
tree. -/
theorem binary_eq_ok {power : Nat} {tree : Expr} {taken : List Lexeme}
    (reads : Complete location (.level power tree) taken) {fuel least : Nat}
    {tokens rest : List Token} (enough : 8 * taken.length + 3 ≤ fuel)
    (begins : Begins tokens taken rest) (le : least ≤ power)
    (chained : continuesChain (front rest).kind = false) (stops : StopsBelow least rest) :
    binary location fuel least tokens = .ok (tree, rest) := by
  rcases reads enough begins le chained (fun operator found inFront =>
      Nat.lt_of_lt_of_le (stops operator found inFront) (Nat.le_succ_of_le le)) with
    ⟨left, spent, equation⟩
  rw [equation]
  exact binaryTail_of_stopsBelow (by omega) stops

theorem plain {tree : Expr} {taken : List Lexeme}
    (inner : Complete location (.level 1 tree) taken) :
    Complete location (.ternary tree) taken := by
  intro fuel tokens rest enough begins ends
  rcases Nat.exists_eq_add_of_le' (show 1 ≤ fuel by omega) with ⟨fuel, rfl⟩
  have read : binary location fuel 0 tokens = .ok (tree, rest) :=
    inner.binary_eq_ok (by omega) begins (Nat.zero_le 1)
      (not_continuesChain_of_endsExpr ends) (stopsBelow_of_endsExpr ends 0)
  have noMark : (front rest).kind ≠ .symbol .question := by
    intro mark
    rw [mark] at ends
    cases ends
  rw [Parser.ternary, bind_eq_of_eq_ok read, bind_eq_of_eq_ok (accept_of_not_front noMark)]
  rfl

theorem conditional {condition yes no : Expr} {first second third : List Lexeme}
    (test : Complete location (.level 1 condition) first)
    (whenTrue : Complete location (.ternary yes) second)
    (whenFalse : Complete location (.ternary no) third) :
    Complete location (.ternary (.ternary condition yes no location))
      (first ++ .symbol .question :: (second ++ .symbol .colon :: third)) := by
  intro fuel tokens rest enough begins ends
  simp only [List.length_append, List.length_cons] at enough
  rcases Nat.exists_eq_add_of_le' (show 1 ≤ fuel by omega) with ⟨fuel, rfl⟩
  rcases begins.append with ⟨behindTest, testBegins, begins⟩
  rcases begins.cons with ⟨isMark, begins⟩
  rcases begins.append with ⟨behindTrue, trueBegins, begins⟩
  rcases begins.cons with ⟨isColon, falseBegins⟩
  have testRead : binary location fuel 0 tokens = .ok (condition, behindTest) :=
    test.binary_eq_ok (by omega) testBegins (Nat.zero_le 1)
      (by rw [isMark]; rfl) (by rw [StopsBelow, isMark]; rintro _ _ ⟨⟩)
  have trueRead : Parser.ternary location fuel (behind behindTest) = .ok (yes, behindTrue) :=
    whenTrue (by omega) trueBegins (by rw [isColon]; rfl)
  have falseRead : Parser.ternary location fuel (behind behindTrue) = .ok (no, rest) :=
    whenFalse (by omega) falseBegins ends
  rw [Parser.ternary, bind_eq_of_eq_ok testRead, bind_eq_of_eq_ok (accept_of_front isMark),
    if_pos rfl, bind_eq_of_eq_ok trueRead, bind_eq_of_eq_ok (expect_of_front isColon),
    bind_eq_of_eq_ok falseRead]
  rfl

theorem tighter {power : Nat} {tree : Expr} {taken : List Lexeme}
    (inner : Complete location (.level (power + 1) tree) taken) :
    Complete location (.level power tree) taken := by
  intro fuel least tokens rest enough begins le chained stops
  exact inner enough begins (Nat.le_succ_of_le le) chained
    (fun operator found inFront => Nat.lt_succ_of_lt (stops operator found inFront))

theorem between {operator : Operator} {power : Nat} {left right : Expr}
    {first second : List Lexeme} (fixity : operator.fixity = .between power)
    (before : Complete location (.level power left) first)
    (behind : Complete location (.level (power + 1) right) second) :
    Complete location (.level power (.apply operator [left, right] location))
      (first ++ operator.sign :: second) := by
  intro fuel least tokens rest enough begins le chained stops
  simp only [List.length_append, List.length_cons] at enough ⊢
  rcases begins.append with ⟨middle, firstBegins, begins⟩
  rcases begins.cons with ⟨isSign, secondBegins⟩
  have inFront : Operator.betweenOperands? (front middle).kind = some (operator, power) :=
    betweenOperands?_eq_some_iff.mpr ⟨fixity, isSign⟩
  have goesOn : ∃ fuelLeft, fuel ≤ fuelLeft + first.length ∧
      Parser.binary location fuel least tokens =
        Parser.binaryTail location fuelLeft least left middle := by
    refine before (by omega) firstBegins le ?_ ?_
    · rw [isSign]
      exact not_continuesChain_of_between fixity
    · intro other found same
      cases inFront.symm.trans same
      exact Nat.lt_succ_self power
  rcases goesOn with ⟨fuelLeft, spent, firstRead⟩
  rcases Nat.exists_eq_add_of_le' (show 1 ≤ fuelLeft by omega) with ⟨fuelLeft, rfl⟩
  have secondRead : Parser.binary location fuelLeft (power + 1) (Parser.behind middle) =
      .ok (right, rest) :=
    behind.binary_eq_ok (by omega) secondBegins (Nat.le_refl _) chained stops
  refine ⟨fuelLeft, by omega, ?_⟩
  rw [firstRead, Parser.binaryTail, peek_bind, inFront]
  simp only [if_neg (Nat.not_lt.mpr le), advance_bind]
  rw [bind_eq_of_eq_ok secondRead]

theorem before {operator : Operator} {operand : Expr} {taken : List Lexeme}
    (fixity : operator.fixity = .before)
    (behind : Complete location (.level 12 operand) taken) :
    Complete location (.level 12 (.apply operator [operand] location))
      (operator.sign :: taken) := by
  intro fuel least tokens rest enough begins le chained stops
  simp only [List.length_cons] at enough ⊢
  rcases begins.cons with ⟨isSign, begins⟩
  have inFront : Operator.beforeOperand? (front tokens).kind = some operator :=
    beforeOperand?_eq_some_iff.mpr ⟨fixity, isSign⟩
  rcases Nat.exists_eq_add_of_le' (show 1 ≤ fuel by omega) with ⟨fuel, rfl⟩
  have operandRead : Parser.binary location fuel signPower (Parser.behind tokens) =
      .ok (operand, rest) := by
    refine behind.binary_eq_ok (by omega) begins (Nat.le_refl 12) chained ?_
    intro other found inFront
    have bounds := power_bounds (betweenOperands?_eq_some_iff.mp inFront).1
    rw [signPower]
    omega
  refine ⟨fuel, by omega, ?_⟩
  rw [Parser.binary, peek_bind, inFront]
  simp only [advance_bind]
  rw [bind_eq_of_eq_ok operandRead]

theorem unsigned {tree : Expr} {taken : List Lexeme}
    (derived : Derives location (.chain tree) taken)
    (inner : Complete location (.chain tree) taken) :
    Complete location (.level 12 tree) taken := by
  intro fuel least tokens rest enough begins le chained stops
  rcases derived.exists_first with absurd | ⟨first, others, rfl, starts⟩
  · cases absurd
  have noSign : Operator.beforeOperand? (front tokens).kind = none := by
    rw [begins.cons.1]
    exact beforeOperand?_eq_none_of_startsPrimary starts
  rcases Nat.exists_eq_add_of_le' (show 1 ≤ fuel by omega) with ⟨fuel, rfl⟩
  have goesOn : ∃ fuelLeft, fuel ≤ fuelLeft + (first :: others).length ∧
      Parser.chain location fuel tokens = Parser.chainTail location fuelLeft tree rest := by
    refine inner (by omega) begins ?_ (fun _ => ?_)
    · intro isColon
      rw [isColon] at chained
      cases chained
    · intro isParen
      rw [isParen] at chained
      cases chained
  rcases goesOn with ⟨fuelLeft, spent, read⟩
  rw [chainTail_of_not_continuesChain (by omega) chained] at read
  refine ⟨fuel, by simp, ?_⟩
  rw [Parser.binary, peek_bind, noSign]
  exact bind_eq_of_eq_ok read _

theorem single {tree : Expr} {taken : List Lexeme}
    (derived : Derives location (.primary tree) taken)
    (inner : Complete location (.primary tree) taken) :
    Complete location (.chain tree) taken := by
  intro fuel tokens rest enough begins noColon _
  rcases derived.exists_first with absurd | ⟨first, others, rfl, _⟩
  · cases absurd
  rcases Nat.exists_eq_add_of_le' (show 1 ≤ fuel by omega) with ⟨fuel, rfl⟩
  have read : Parser.primary location fuel tokens = .ok (tree, rest) :=
    inner (by omega) begins noColon
  exact ⟨fuel, by simp, by rw [Parser.chain, bind_eq_of_eq_ok read]⟩

/-- One more part of a chain: the loop is entered behind it if it is taken as
part of the chain in front of it. -/
theorem chain_part {receiver tree : Expr} {first part : List Lexeme} {token : Lexeme}
    (before : Complete location (.chain receiver) first) (isPart : part.head? = some token)
    (noColon : token ≠ .symbol .doubleColon)
    (free : EndsInMember first → token ≠ .symbol .leftParen)
    {fuel : Nat} {tokens rest : List Token} (enough : 8 * (first ++ part).length + 2 ≤ fuel)
    (begins : Begins tokens (first ++ part) rest)
    (step : ∀ {fuel : Nat} {middle : List Token}, 8 * part.length + 1 ≤ fuel →
      Begins middle part rest →
      Parser.chainTail location (fuel + 1) receiver middle =
        Parser.chainTail location fuel tree rest) :
    ∃ left, fuel ≤ left + (first ++ part).length ∧
      Parser.chain location fuel tokens = Parser.chainTail location left tree rest := by
  rcases List.head?_eq_some_iff.mp isPart with ⟨others, rfl⟩
  simp only [List.length_append, List.length_cons] at enough step ⊢
  rcases begins.append with ⟨middle, firstBegins, partBegins⟩
  have inFront := partBegins.cons.1
  have goesOn : ∃ fuelLeft, fuel ≤ fuelLeft + first.length ∧
      Parser.chain location fuel tokens =
        Parser.chainTail location fuelLeft receiver middle :=
    before (by omega) firstBegins (by rwa [inFront]) (by rwa [inFront])
  rcases goesOn with ⟨fuelLeft, spent, read⟩
  rcases Nat.exists_eq_add_of_le' (show 1 ≤ fuelLeft by omega) with ⟨fuelLeft, rfl⟩
  exact ⟨fuelLeft, by omega, by rw [read, step (by omega) partBegins]⟩

theorem call {callee : Expr} {arguments : List Expr} {first inside : List Lexeme}
    (before : Complete location (.chain callee) first) (free : ¬ EndsInMember first)
    (list : Complete location (.items arguments) inside) :
    Complete location (.chain (.apply .call (callee :: arguments) location))
      (first ++ .symbol .leftParen :: (inside ++ [.symbol .rightParen])) := by
  intro fuel tokens rest enough begins noColon _
  refine before.chain_part rfl (by simp) (fun ends => absurd ends free) enough begins ?_
  intro fuel middle enough begins
  simp only [List.length_append, List.length_cons] at enough
  rcases begins.cons with ⟨isParen, begins⟩
  have read : Parser.items location fuel .rightParen (Parser.behind middle) =
      .ok (arguments, rest) :=
    list (by omega) begins (.inl rfl)
  rw [Parser.chainTail, peek_bind, isParen]
  simp only [advance_bind]
  rw [bind_eq_of_eq_ok read]

theorem index {container position : Expr} {first inside : List Lexeme}
    (before : Complete location (.chain container) first)
    (inner : Complete location (.ternary position) inside) :
    Complete location (.chain (.apply .index [container, position] location))
      (first ++ .symbol .leftBracket :: (inside ++ [.symbol .rightBracket])) := by
  intro fuel tokens rest enough begins _ _
  refine before.chain_part rfl (by simp) (by simp) enough begins ?_
  intro fuel middle enough begins
  simp only [List.length_append, List.length_cons] at enough
  rcases begins.cons with ⟨isBracket, begins⟩
  rcases begins.append with ⟨behindPosition, begins, closeBegins⟩
  rcases closeBegins.cons with ⟨isClose, begins'⟩
  have read : Parser.ternary location fuel (Parser.behind middle) =
      .ok (position, behindPosition) :=
    inner (by omega) begins (by rw [isClose]; rfl)
  rw [Parser.chainTail, peek_bind, isBracket]
  simp only [advance_bind]
  rw [bind_eq_of_eq_ok read, bind_eq_of_eq_ok (expect_of_front isClose), begins'.eq_of_nil]

theorem access {operator : Operator} {receiver : Expr} {first : List Lexeme} (name : String)
    (fixity : operator.fixity = .access)
    (before : Complete location (.chain receiver) first) :
    Complete location
      (.chain (.apply operator [receiver, .atom (.member name) location] location))
      (first ++ [operator.sign, .word name]) := by
  intro fuel tokens rest enough begins _ noParen
  refine before.chain_part rfl ?_ ?_ enough begins ?_
  · cases operator <;> simp_all [Operator.fixity, Operator.sign]
  · cases operator <;> simp_all [Operator.fixity, Operator.sign]
  intro fuel middle _ begins
  rcases begins.cons with ⟨isSign, begins⟩
  rcases begins.cons with ⟨isWord, begins⟩
  have read := word_of_front isWord
  rw [begins.eq_of_nil] at read
  rw [Parser.chainTail, peek_bind, isSign]
  cases operator with
  | member =>
      simp only [Operator.sign, advance_bind]
      rw [bind_eq_of_eq_ok read,
        bind_eq_of_eq_ok (accept_of_not_front (noParen (endsInMember_append_iff.mpr rfl)))]
      rfl
  | tryMember | hasMember =>
      simp only [Operator.sign, advance_bind]
      rw [bind_eq_of_eq_ok read]
  | _ => cases fixity

theorem methodCall {receiver : Expr} {arguments : List Expr} {first inside : List Lexeme}
    (name : String) (before : Complete location (.chain receiver) first)
    (list : Complete location (.items arguments) inside) :
    Complete location
      (.chain (.apply .methodCall
        (receiver :: .atom (.member name) location :: arguments) location))
      (first ++ .symbol .dot :: .word name :: .symbol .leftParen ::
        (inside ++ [.symbol .rightParen])) := by
  intro fuel tokens rest enough begins _ _
  refine before.chain_part rfl (by simp) (by simp) enough begins ?_
  intro fuel middle enough begins
  simp only [List.length_append, List.length_cons] at enough
  rcases begins.cons with ⟨isDot, begins⟩
  rcases begins.cons with ⟨isWord, begins⟩
  rcases begins.cons with ⟨isParen, begins⟩
  have read : Parser.items location fuel .rightParen
      (Parser.behind (Parser.behind (Parser.behind middle))) = .ok (arguments, rest) :=
    list (by omega) begins (.inl rfl)
  rw [Parser.chainTail, peek_bind, isDot]
  simp only [advance_bind]
  rw [bind_eq_of_eq_ok (word_of_front isWord), bind_eq_of_eq_ok (accept_of_front isParen)]
  simp only [if_true]
  rw [bind_eq_of_eq_ok read]

end Complete

/-- The parts of a name are read up to a token that is no double colon. -/
theorem path_complete {parts : List String} {fuel : Nat} {start : String}
    {tokens rest : List Token} (enough : parts.length + 1 ≤ fuel)
    (begins : Begins tokens
      (parts.flatMap fun part => [.symbol .doubleColon, .word part]) rest)
    (noColon : (front rest).kind ≠ .symbol .doubleColon) :
    path fuel start tokens = .ok (pathName start parts, rest) := by
  rcases Nat.exists_eq_add_of_le' (show 1 ≤ fuel by omega) with ⟨fuel, rfl⟩
  induction parts generalizing fuel start tokens with
  | nil =>
      rw [begins.eq_of_nil, path, bind_eq_of_eq_ok (accept_of_not_front noColon),
        pathName, String.intercalate_singleton]
      rfl
  | cons part parts ih =>
      rw [List.length_cons] at enough
      rcases begins.cons with ⟨isColon, begins⟩
      rcases begins.cons with ⟨isWord, begins⟩
      rcases Nat.exists_eq_add_of_le' (show 1 ≤ fuel by omega) with ⟨fuel, rfl⟩
      rw [path, bind_eq_of_eq_ok (accept_of_front isColon), if_pos rfl,
        bind_eq_of_eq_ok (word_of_front isWord), ih begins fuel (by omega), pathName_cons]

namespace Complete

theorem name (start : String) (parts : List String) :
    Complete location (.primary (.atom (.id (pathName start parts)) location))
      (pathTokens start parts) := by
  intro fuel tokens rest enough begins noColon
  rw [length_pathTokens] at enough
  rcases begins.cons with ⟨isWord, begins⟩
  rcases Nat.exists_eq_add_of_le' (show 1 ≤ fuel by omega) with ⟨fuel, rfl⟩
  have read : path fuel start (behind tokens) = .ok (pathName start parts, rest) :=
    path_complete (by omega) begins noColon
  rw [Parser.primary, peek_bind, isWord]
  simp only
  rw [bind_eq_of_eq_ok (word_of_front isWord), bind_eq_of_eq_ok read]
  rfl

theorem literal {token : Lexeme} {value : Atom} (denotes : Literal token value) :
    Complete location (.primary (.atom value location)) [token] := by
  intro fuel tokens rest enough begins _
  rcases begins.cons with ⟨isToken, begins⟩
  rcases Nat.exists_eq_add_of_le' (show 1 ≤ fuel by omega) with ⟨fuel, rfl⟩
  have found := literal?_eq_some_ok_iff.mpr denotes
  rw [Parser.primary, peek_bind, isToken, ← begins.eq_of_nil]
  cases denotes <;> simp only [found] <;> rfl

theorem unit :
    Complete location (.primary (.tuple [] location))
      [.symbol .leftParen, .symbol .rightParen] := by
  intro fuel tokens rest enough begins _
  rcases begins.cons with ⟨isOpen, begins⟩
  rcases begins.cons with ⟨isClose, begins⟩
  rcases Nat.exists_eq_add_of_le' (show 1 ≤ fuel by omega) with ⟨fuel, rfl⟩
  rw [Parser.primary, peek_bind, isOpen, ← begins.eq_of_nil]
  simp only [advance_bind]
  rw [bind_eq_of_eq_ok (accept_of_front isClose)]
  rfl

/-- The expression behind an opening parenthesis is read. -/
theorem parenthesis {tree : Expr} {start others : List Lexeme} {token : Lexeme}
    (derived : Derives location (.ternary tree) start)
    (inner : Complete location (.ternary tree) start) (fuel : Nat) {tokens rest : List Token}
    (enough : 8 * start.length + 4 ≤ fuel)
    (begins : Begins tokens (.symbol .leftParen :: (start ++ token :: others)) rest)
    (ends : endsExpr token = true) :
    ∃ middle, Begins middle (token :: others) rest ∧
      Parser.primary location (fuel + 1) tokens = (do
        if ← accept .rightParen then
          return tree
        else
          expect .comma
          let others ← Parser.items location fuel .rightParen
          return .tuple (tree :: others) location) middle := by
  rcases begins.cons with ⟨isOpen, begins⟩
  rcases begins.append with ⟨middle, startBegins, tailBegins⟩
  rcases derived.exists_first with absurd | ⟨first, left, rfl, starts⟩
  · cases absurd
  have isFirst := startBegins.cons.1
  have noClose : (front (Parser.behind tokens)).kind ≠ .symbol .rightParen := by
    rw [isFirst]
    rintro rfl
    cases starts
  have read : Parser.ternary location fuel (Parser.behind tokens) = .ok (tree, middle) :=
    inner enough startBegins (by rwa [tailBegins.cons.1])
  refine ⟨middle, tailBegins, ?_⟩
  rw [Parser.primary, peek_bind, isOpen]
  simp only [advance_bind]
  rw [bind_eq_of_eq_ok (accept_of_not_front noClose)]
  simp only [Bool.false_eq_true, if_false]
  rw [bind_eq_of_eq_ok read]

theorem group {tree : Expr} {inside : List Lexeme}
    (derived : Derives location (.ternary tree) inside)
    (inner : Complete location (.ternary tree) inside) :
    Complete location (.primary tree)
      (.symbol .leftParen :: (inside ++ [.symbol .rightParen])) := by
  intro fuel tokens rest enough begins _
  simp only [List.length_append, List.length_cons] at enough
  rcases Nat.exists_eq_add_of_le' (show 1 ≤ fuel by omega) with ⟨fuel, rfl⟩
  rcases parenthesis derived inner fuel (by omega) begins rfl with ⟨middle, begins, read⟩
  rcases begins.cons with ⟨isClose, begins⟩
  rw [read, bind_eq_of_eq_ok (accept_of_front isClose), begins.eq_of_nil]
  rfl

theorem tuple {first : Expr} {others : List Expr} {start inside : List Lexeme}
    (derived : Derives location (.ternary first) start)
    (item : Complete location (.ternary first) start)
    (list : Complete location (.items others) inside) :
    Complete location (.primary (.tuple (first :: others) location))
      (.symbol .leftParen ::
        (start ++ .symbol .comma :: (inside ++ [.symbol .rightParen]))) := by
  intro fuel tokens rest enough begins _
  simp only [List.length_append, List.length_cons] at enough
  rcases Nat.exists_eq_add_of_le' (show 1 ≤ fuel by omega) with ⟨fuel, rfl⟩
  rcases parenthesis derived item fuel (by omega) begins rfl with ⟨middle, begins, read⟩
  rcases begins.cons with ⟨isComma, begins⟩
  have noClose : (front middle).kind ≠ .symbol .rightParen := by
    rw [isComma]
    simp
  have othersRead : Parser.items location fuel .rightParen (Parser.behind middle) =
      .ok (others, rest) :=
    list (by omega) begins (.inl rfl)
  rw [read, bind_eq_of_eq_ok (accept_of_not_front noClose)]
  simp only [Bool.false_eq_true, if_false]
  rw [bind_eq_of_eq_ok (expect_of_front isComma), bind_eq_of_eq_ok othersRead]
  rfl

theorem vector {elements : List Expr} {inside : List Lexeme}
    (list : Complete location (.items elements) inside) :
    Complete location (.primary (.vector elements location))
      (.symbol .leftBracket :: (inside ++ [.symbol .rightBracket])) := by
  intro fuel tokens rest enough begins _
  simp only [List.length_append, List.length_cons] at enough
  rcases begins.cons with ⟨isOpen, begins⟩
  rcases Nat.exists_eq_add_of_le' (show 1 ≤ fuel by omega) with ⟨fuel, rfl⟩
  have read : Parser.items location fuel .rightBracket (Parser.behind tokens) =
      .ok (elements, rest) :=
    list (by omega) begins (.inr rfl)
  rw [Parser.primary, peek_bind, isOpen]
  simp only [advance_bind]
  rw [bind_eq_of_eq_ok read]
  rfl

theorem none : Complete location (.items []) [] := by
  intro fuel close tokens rest enough begins _
  rcases begins.cons with ⟨isClose, begins⟩
  rcases Nat.exists_eq_add_of_le' (show 1 ≤ fuel by omega) with ⟨fuel, rfl⟩
  rw [Parser.items, bind_eq_of_eq_ok (accept_of_front isClose), begins.eq_of_nil]
  rfl

/-- The first of some items is read. -/
theorem first_item {item : Expr} {start others : List Lexeme} {token : Lexeme}
    (derived : Derives location (.ternary item) start)
    (inner : Complete location (.ternary item) start) (fuel : Nat) {close : Symbol}
    {tokens rest : List Token} (enough : 8 * start.length + 4 ≤ fuel)
    (begins : Begins tokens (start ++ token :: others) rest) (ends : endsExpr token = true)
    (isClose : close = .rightParen ∨ close = .rightBracket) :
    ∃ middle, Begins middle (token :: others) rest ∧
      Parser.items location (fuel + 1) close tokens = (do
        if ← accept .comma then
          let others ← Parser.items location fuel close
          return item :: others
        else
          expect close
          return [item]) middle := by
  rcases begins.append with ⟨middle, startBegins, tailBegins⟩
  rcases derived.exists_first with absurd | ⟨first, left, rfl, starts⟩
  · cases absurd
  have isFirst := startBegins.cons.1
  have noClose : (front tokens).kind ≠ .symbol close := by
    rw [isFirst]
    rintro rfl
    rcases isClose with rfl | rfl <;> cases starts
  have read : Parser.ternary location fuel tokens = .ok (item, middle) :=
    inner enough startBegins (by rwa [tailBegins.cons.1])
  refine ⟨middle, tailBegins, ?_⟩
  rw [Parser.items, bind_eq_of_eq_ok (accept_of_not_front noClose)]
  simp only [Bool.false_eq_true, if_false]
  rw [bind_eq_of_eq_ok read]

theorem last {item : Expr} {taken : List Lexeme}
    (derived : Derives location (.ternary item) taken)
    (inner : Complete location (.ternary item) taken) :
    Complete location (.items [item]) taken := by
  intro fuel close tokens rest enough begins isClose
  rcases Nat.exists_eq_add_of_le' (show 1 ≤ fuel by omega) with ⟨fuel, rfl⟩
  rcases first_item derived inner fuel (by omega) begins
      (by rcases isClose with rfl | rfl <;> rfl) isClose with ⟨middle, begins, read⟩
  rcases begins.cons with ⟨inFront, begins⟩
  have noComma : (front middle).kind ≠ .symbol .comma := by
    rw [inFront]
    rcases isClose with rfl | rfl <;> simp
  rw [read, bind_eq_of_eq_ok (accept_of_not_front noComma)]
  simp only [Bool.false_eq_true, if_false]
  rw [bind_eq_of_eq_ok (expect_of_front inFront), begins.eq_of_nil]
  rfl

theorem more {item : Expr} {others : List Expr} {first inside : List Lexeme}
    (derived : Derives location (.ternary item) first)
    (inner : Complete location (.ternary item) first)
    (list : Complete location (.items others) inside) :
    Complete location (.items (item :: others)) (first ++ .symbol .comma :: inside) := by
  intro fuel close tokens rest enough begins isClose
  simp only [List.length_append, List.length_cons] at enough
  rw [List.append_assoc, List.cons_append] at begins
  rcases Nat.exists_eq_add_of_le' (show 1 ≤ fuel by omega) with ⟨fuel, rfl⟩
  rcases first_item derived inner fuel (by omega) begins rfl isClose with ⟨middle, begins, read⟩
  rcases begins.cons with ⟨isComma, begins⟩
  have othersRead : Parser.items location fuel close (Parser.behind middle) =
      .ok (others, rest) :=
    list (by omega) begins isClose
  rw [read, bind_eq_of_eq_ok (accept_of_front isComma)]
  simp only [if_true]
  rw [bind_eq_of_eq_ok othersRead]
  rfl

end Complete

/-! ## All phrases -/

/-- The tokens of every phrase are read as its tree. -/
theorem complete {phrase : Phrase} {taken : List Lexeme}
    (derived : Derives location phrase taken) : Complete location phrase taken := by
  induction derived with
  | plain _ ih => exact Complete.plain ih
  | conditional _ _ _ testIH trueIH falseIH => exact Complete.conditional testIH trueIH falseIH
  | tighter _ _ _ ih => exact Complete.tighter ih
  | between fixity _ _ leftIH rightIH => exact Complete.between fixity leftIH rightIH
  | before fixity _ ih => exact Complete.before fixity ih
  | unsigned derived ih => exact Complete.unsigned derived ih
  | single derived ih => exact Complete.single derived ih
  | call _ free _ calleeIH listIH => exact Complete.call calleeIH free listIH
  | index _ _ containerIH positionIH => exact Complete.index containerIH positionIH
  | access name fixity _ ih => exact Complete.access name fixity ih
  | methodCall name _ _ receiverIH listIH => exact Complete.methodCall name receiverIH listIH
  | name start parts => exact Complete.name start parts
  | literal denotes => exact Complete.literal denotes
  | unit => exact Complete.unit
  | group derived ih => exact Complete.group derived ih
  | tuple derived _ itemIH listIH => exact Complete.tuple derived itemIH listIH
  | vector _ ih => exact Complete.vector ih
  | none => exact Complete.none
  | last derived ih => exact Complete.last derived ih
  | more derived _ itemIH listIH => exact Complete.more derived itemIH listIH

end AnalyzerGlue.Expr.Parser
