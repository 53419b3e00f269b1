import AnalyzerGlue.Expr.Parser

/-!
# The grammar of expressions

`Derives` says which lists of tokens stand for which trees.  It is layered by
powers and left-recursive, and mentions neither an order of reading nor a
bound on it:

* a conditional expression is an expression of level one, or such a condition
  with two conditional expressions behind it;
* an expression of level `power` is one of the next level, or has an operator
  of that power between an expression of the same level and one of the next;
* level twelve has the signs before an operand, and chains;
* a chain is a primary expression with calls, indices and accesses behind it;
* items are conditional expressions with commas between them, and maybe one
  after the last.

The nonterminals share one relation: a `Phrase` is a nonterminal together with
the tree that it stands for.
-/

namespace AnalyzerGlue

/-- The token that an operator is written with.  Calls and indices go by the
bracket that opens them. -/
def Operator.sign : Operator → Lexeme
  | .member | .methodCall => .symbol .dot
  | .tryMember => .symbol .dotQuestion
  | .hasMember => .symbol .questionDot
  | .call => .symbol .leftParen
  | .index => .symbol .leftBracket
  | .not => .symbol .bang
  | .minus | .difference => .symbol .minus
  | .complement => .symbol .tilde
  | .or => .symbol .orOr
  | .and => .symbol .andAnd
  | .isIn => .isIn
  | .bitOr => .symbol .pipe
  | .bitXor => .symbol .caret
  | .bitAnd => .symbol .ampersand
  | .equal => .symbol .equal
  | .unequal => .symbol .notEqual
  | .less => .symbol .less
  | .lessEqual => .symbol .lessEqual
  | .greater => .symbol .greater
  | .greaterEqual => .symbol .greaterEqual
  | .shiftLeft => .symbol .shiftLeft
  | .shiftRight => .symbol .shiftRight
  | .sum => .symbol .plus
  | .product => .symbol .star
  | .quotient => .symbol .slash
  | .remainder => .symbol .percent

namespace Expr

/-! ## Nodes of a tree -/

mutual

/-- An expression and all expressions inside of it. -/
def nodes : Expr → List Expr
  | .atom value location => [.atom value location]
  | .tuple items location => .tuple items location :: nodesOf items
  | .vector items location => .vector items location :: nodesOf items
  | .call callee arguments location =>
      .call callee arguments location :: nodesOf arguments
  | .memberCall receiver method arguments location =>
      .memberCall receiver method arguments location ::
        (receiver.nodes ++ nodesOf arguments)
  | .apply operator operands location =>
      .apply operator operands location :: nodesOf operands
  | .ternary condition yes no location =>
      .ternary condition yes no location :: (condition.nodes ++ yes.nodes ++ no.nodes)
  | .deferred inner catching location => .deferred inner catching location :: inner.nodes
  | .move inner location => .move inner location :: inner.nodes
  | .assign target value location =>
      .assign target value location :: (target.nodes ++ value.nodes)

/-- Some expressions and all expressions inside of them. -/
def nodesOf : List Expr → List Expr
  | [] => []
  | first :: others => first.nodes ++ nodesOf others

end

/-- The nodes of some expressions are those of each of them. -/
theorem mem_nodesOf_iff {node : Expr} {items : List Expr} :
    node ∈ nodesOf items ↔ ∃ item ∈ items, node ∈ item.nodes := by
  induction items with
  | nil => simp [nodesOf]
  | cons first others ih => simp [nodesOf, ih]

/-- Whether every node of an expression is at the given location. -/
def At (location : Option Location) (tree : Expr) : Prop :=
  ∀ node ∈ tree.nodes, node.location = location

section

variable {location : Option Location}

@[simp]
theorem at_atom (value : Atom) : At location (.atom value location) := by
  simp [At, nodes, Expr.location]

@[simp]
theorem at_tuple_iff {items : List Expr} :
    At location (.tuple items location) ↔ ∀ item ∈ items, At location item := by
  simp only [At, nodes, List.forall_mem_cons, Expr.location, true_and, mem_nodesOf_iff]
  grind

@[simp]
theorem at_vector_iff {items : List Expr} :
    At location (.vector items location) ↔ ∀ item ∈ items, At location item := by
  simp only [At, nodes, List.forall_mem_cons, Expr.location, true_and, mem_nodesOf_iff]
  grind

@[simp]
theorem at_apply_iff {operator : Operator} {operands : List Expr} :
    At location (.apply operator operands location) ↔
      ∀ operand ∈ operands, At location operand := by
  simp only [At, nodes, List.forall_mem_cons, Expr.location, true_and, mem_nodesOf_iff]
  grind

@[simp]
theorem at_ternary_iff {condition yes no : Expr} :
    At location (.ternary condition yes no location) ↔
      At location condition ∧ At location yes ∧ At location no := by
  simp only [At, nodes, List.forall_mem_cons, Expr.location, true_and, List.forall_mem_append,
    and_assoc]

end

/-! ## Derivations -/

/-- The tokens that are expressions by themselves.  Integers have to fit into
sixty-four bits with a sign. -/
inductive Literal : Lexeme → Atom → Prop where
  | int (value : Nat) (bounded : (value : Int) ≤ Text.maxSigned) :
      Literal (.int value) (.int value)
  | real (text : String) : Literal (.real text) (.real text)
  | string (text : String) : Literal (.string text) (.string text)
  | bytes (text : String) : Literal (.bytes text) (.bytes text)
  | bool (value : Bool) : Literal (.bool value) (.bool value)
  | null : Literal .null .null

/-- The tokens of a qualified name, whose parts have double colons between
them. -/
def pathTokens (start : String) (parts : List String) : List Lexeme :=
  .word start :: parts.flatMap fun part => [.symbol .doubleColon, .word part]

theorem length_pathTokens (start : String) (parts : List String) :
    (pathTokens start parts).length = 2 * parts.length + 1 := by
  induction parts with
  | nil => rfl
  | cons part parts ih =>
      simp only [pathTokens, List.flatMap_cons, List.length_cons, List.length_append,
        List.length_nil] at ih ⊢
      omega

/-- The name that the parts make up. -/
def pathName (start : String) (parts : List String) : QualName :=
  ⟨"::".intercalate (start :: parts)⟩

/-- The first two parts of a name may be joined before the others are. -/
theorem pathName_cons (start part : String) (parts : List String) :
    pathName start (part :: parts) = pathName (start ++ "::" ++ part) parts := by
  rw [pathName, pathName, String.intercalate_cons_cons, String.intercalate_cons_append]

/-- Whether a dot and a word come last. -/
def EndsInMember (tokens : List Lexeme) : Prop :=
  ∃ before name, tokens = before ++ [.symbol .dot, .word name]

/-- Behind a word it depends on the token before it. -/
theorem endsInMember_append_iff {tokens : List Lexeme} {token : Lexeme} {name : String} :
    EndsInMember (tokens ++ [token, .word name]) ↔ token = .symbol .dot := by
  constructor
  · rintro ⟨before, word, ends⟩
    have lastTwo := (List.append_inj' ends rfl).2
    simp only [List.cons.injEq] at lastTwo
    exact lastTwo.1
  · rintro rfl
    exact ⟨tokens, name, rfl⟩

/-- A nonterminal of the grammar with the tree that it stands for. -/
inductive Phrase where
  | ternary (tree : Expr)
  | level (power : Nat) (tree : Expr)
  | chain (tree : Expr)
  | primary (tree : Expr)
  | items (trees : List Expr)

/-- The trees of a phrase. -/
def Phrase.trees : Phrase → List Expr
  | .ternary tree | .level _ tree | .chain tree | .primary tree => [tree]
  | .items trees => trees

/-- The tokens that can start a primary expression. -/
def startsPrimary : Lexeme → Bool
  | .word _ | .int _ | .real _ | .string _ | .bytes _ | .bool _ | .null
  | .symbol .leftParen | .symbol .leftBracket => true
  | _ => false

/-- The tokens that can start an expression. -/
def startsExpr (token : Lexeme) : Bool :=
  startsPrimary token || (Operator.beforeOperand? token).isSome

/-- What starts a primary expression is no operator before an operand. -/
theorem beforeOperand?_eq_none_of_startsPrimary {token : Lexeme}
    (starts : startsPrimary token = true) : Operator.beforeOperand? token = none := by
  unfold startsPrimary at starts
  split at starts <;> simp_all [Operator.beforeOperand?]

/-- The tokens that a phrase can start with. -/
def Phrase.starts : Phrase → Lexeme → Bool
  | .ternary _ | .level _ _ | .items _ => startsExpr
  | .chain _ | .primary _ => startsPrimary

/-- Which tokens a phrase may consist of.  All nodes get the same location. -/
inductive Derives (location : Option Location) : Phrase → List Lexeme → Prop where
  | plain {tree : Expr} {tokens : List Lexeme}
      (inner : Derives location (.level 1 tree) tokens) :
      Derives location (.ternary tree) tokens
  | conditional {condition yes no : Expr} {first second third : List Lexeme}
      (test : Derives location (.level 1 condition) first)
      (whenTrue : Derives location (.ternary yes) second)
      (whenFalse : Derives location (.ternary no) third) :
      Derives location (.ternary (.ternary condition yes no location))
        (first ++ .symbol .question :: (second ++ .symbol .colon :: third))
  | tighter {power : Nat} {tree : Expr} {tokens : List Lexeme}
      (low : 1 ≤ power) (high : power ≤ 11)
      (inner : Derives location (.level (power + 1) tree) tokens) :
      Derives location (.level power tree) tokens
  | between {operator : Operator} {power : Nat} {left right : Expr}
      {first second : List Lexeme} (fixity : operator.fixity = .between power)
      (before : Derives location (.level power left) first)
      (behind : Derives location (.level (power + 1) right) second) :
      Derives location (.level power (.apply operator [left, right] location))
        (first ++ operator.sign :: second)
  | before {operator : Operator} {operand : Expr} {tokens : List Lexeme}
      (fixity : operator.fixity = .before)
      (behind : Derives location (.level 12 operand) tokens) :
      Derives location (.level 12 (.apply operator [operand] location))
        (operator.sign :: tokens)
  | unsigned {tree : Expr} {tokens : List Lexeme}
      (inner : Derives location (.chain tree) tokens) :
      Derives location (.level 12 tree) tokens
  | single {tree : Expr} {tokens : List Lexeme}
      (inner : Derives location (.primary tree) tokens) :
      Derives location (.chain tree) tokens
  /-- A dot and a word before the parenthesis would make it a method call. -/
  | call {callee : Expr} {arguments : List Expr} {first inside : List Lexeme}
      (before : Derives location (.chain callee) first) (free : ¬ EndsInMember first)
      (list : Derives location (.items arguments) inside) :
      Derives location (.chain (.apply .call (callee :: arguments) location))
        (first ++ .symbol .leftParen :: (inside ++ [.symbol .rightParen]))
  | index {container position : Expr} {first inside : List Lexeme}
      (before : Derives location (.chain container) first)
      (inner : Derives location (.ternary position) inside) :
      Derives location (.chain (.apply .index [container, position] location))
        (first ++ .symbol .leftBracket :: (inside ++ [.symbol .rightBracket]))
  | access {operator : Operator} {receiver : Expr} {first : List Lexeme} (name : String)
      (fixity : operator.fixity = .access)
      (before : Derives location (.chain receiver) first) :
      Derives location
        (.chain (.apply operator [receiver, .atom (.member name) location] location))
        (first ++ [operator.sign, .word name])
  | methodCall {receiver : Expr} {arguments : List Expr} {first inside : List Lexeme}
      (name : String) (before : Derives location (.chain receiver) first)
      (list : Derives location (.items arguments) inside) :
      Derives location
        (.chain (.apply .methodCall
          (receiver :: .atom (.member name) location :: arguments) location))
        (first ++ .symbol .dot :: .word name :: .symbol .leftParen ::
          (inside ++ [.symbol .rightParen]))
  | name (start : String) (parts : List String) :
      Derives location (.primary (.atom (.id (pathName start parts)) location))
        (pathTokens start parts)
  | literal {token : Lexeme} {value : Atom} (denotes : Literal token value) :
      Derives location (.primary (.atom value location)) [token]
  | unit :
      Derives location (.primary (.tuple [] location))
        [.symbol .leftParen, .symbol .rightParen]
  | group {tree : Expr} {inside : List Lexeme}
      (inner : Derives location (.ternary tree) inside) :
      Derives location (.primary tree)
        (.symbol .leftParen :: (inside ++ [.symbol .rightParen]))
  | tuple {first : Expr} {others : List Expr} {start inside : List Lexeme}
      (item : Derives location (.ternary first) start)
      (list : Derives location (.items others) inside) :
      Derives location (.primary (.tuple (first :: others) location))
        (.symbol .leftParen ::
          (start ++ .symbol .comma :: (inside ++ [.symbol .rightParen])))
  | vector {elements : List Expr} {inside : List Lexeme}
      (list : Derives location (.items elements) inside) :
      Derives location (.primary (.vector elements location))
        (.symbol .leftBracket :: (inside ++ [.symbol .rightBracket]))
  | none : Derives location (.items []) []
  | last {item : Expr} {tokens : List Lexeme}
      (inner : Derives location (.ternary item) tokens) :
      Derives location (.items [item]) tokens
  | more {item : Expr} {others : List Expr} {first inside : List Lexeme}
      (inner : Derives location (.ternary item) first)
      (list : Derives location (.items others) inside) :
      Derives location (.items (item :: others)) (first ++ .symbol .comma :: inside)

namespace Derives

variable {location : Option Location}

/-! ### Locations -/

/-- Every node of a derived tree is at the location of the derivation. -/
theorem at_of_mem_trees {phrase : Phrase} {tokens : List Lexeme}
    (derived : Derives location phrase tokens) :
    ∀ tree ∈ phrase.trees, At location tree := by
  induction derived <;> simp_all [Phrase.trees]

/-! ### Levels -/

/-- An expression of some level is one of each lower level. -/
theorem lower {low high : Nat} {tree : Expr} {tokens : List Lexeme}
    (derived : Derives location (.level high tree) tokens)
    (positive : 1 ≤ low) (le : low ≤ high) (bounded : high ≤ 12) :
    Derives location (.level low tree) tokens := by
  induction le with
  | refl => exact derived
  | @step middle le ih =>
      have next : Derives location (.level middle tree) tokens :=
        .tighter (Nat.le_trans positive le) (by omega) derived
      exact ih next (by omega)

/-! ### First and last tokens -/

/-- A phrase that is no empty list of items has a first token, and it is one
that such a phrase can start with. -/
theorem exists_first {phrase : Phrase} {tokens : List Lexeme}
    (derived : Derives location phrase tokens) :
    phrase = .items [] ∨ ∃ first others, tokens = first :: others ∧ phrase.starts first := by
  induction derived with
  | plain _ ih | tighter _ _ _ ih | last _ ih =>
      rcases ih with absurd | ⟨first, others, rfl, starts⟩
      · cases absurd
      · exact .inr ⟨first, others, rfl, starts⟩
  | conditional _ _ _ ih _ _ | between _ _ _ ih _ | call _ _ _ ih _ | index _ _ ih _
  | access _ _ _ ih | methodCall _ _ _ ih _ | more _ _ ih _ =>
      rcases ih with absurd | ⟨first, others, rfl, starts⟩
      · cases absurd
      · exact .inr ⟨first, _, rfl, starts⟩
  | @before operator _ _ fixity _ _ =>
      refine .inr ⟨operator.sign, _, rfl, ?_⟩
      cases operator <;> cases fixity <;> rfl
  | unsigned _ ih | single _ ih =>
      rcases ih with absurd | ⟨first, others, rfl, starts⟩
      · cases absurd
      · exact .inr ⟨first, others, rfl, by simp_all [Phrase.starts, startsExpr]⟩
  | name => exact .inr ⟨_, _, rfl, rfl⟩
  | literal denotes => cases denotes <;> exact .inr ⟨_, _, rfl, rfl⟩
  | unit | group | tuple | vector => exact .inr ⟨_, _, rfl, rfl⟩
  | none => exact .inl rfl

/-- What does not end with a word does not end in an access to a member. -/
theorem not_endsInMember_of_getLast? {tokens : List Lexeme}
    (last : ∀ word, tokens.getLast? ≠ some (.word word)) : ¬ EndsInMember tokens := by
  rintro ⟨before, word, rfl⟩
  exact last word (by simp)

/-- A primary expression does not end in an access to a member. -/
theorem not_endsInMember_of_primary {tree : Expr} {tokens : List Lexeme}
    (derived : Derives location (.primary tree) tokens) : ¬ EndsInMember tokens := by
  cases derived with
  | name start parts =>
      rcases List.eq_nil_or_concat parts with rfl | ⟨front, part, rfl⟩
      · rintro ⟨before, word, ends⟩
        have length := congrArg List.length ends
        simp [pathTokens] at length
      · have split : pathTokens start (front.concat part) =
            pathTokens start front ++ [.symbol .doubleColon, .word part] := by
          simp [pathTokens]
        rw [split, endsInMember_append_iff]
        simp
  | literal denotes =>
      rintro ⟨before, word, ends⟩
      have length := congrArg List.length ends
      simp at length
  | unit | group | tuple | vector =>
      exact not_endsInMember_of_getLast? (by simp [List.getLast?_cons])

/-- A chain that ends in an access to a member is such an access. -/
theorem eq_member_of_endsInMember {tree : Expr} {tokens : List Lexeme}
    (derived : Derives location (.chain tree) tokens) (ends : EndsInMember tokens) :
    ∃ receiver name, tree =
      .apply .member [receiver, .atom (.member name) location] location := by
  cases derived with
  | single primary => exact absurd ends (not_endsInMember_of_primary primary)
  | call | index | methodCall =>
      exact absurd ends (not_endsInMember_of_getLast? (by simp [List.getLast?_cons]))
  | @access operator receiver first name fixity before =>
      have isDot := endsInMember_append_iff.mp ends
      cases operator <;> simp [Operator.sign, Operator.fixity] at isDot fixity
      exact ⟨receiver, name, rfl⟩

end Derives

/-! ### Operators and literals -/

/-- A token stands between operands exactly if it is the sign of an operator
with a power. -/
theorem betweenOperands?_eq_some_iff {token : Lexeme} {operator : Operator} {power : Nat} :
    Operator.betweenOperands? token = some (operator, power) ↔
      operator.fixity = .between power ∧ token = operator.sign := by
  constructor
  · intro found
    refine ⟨Operator.fixity_of_betweenOperands?_eq_some found, ?_⟩
    unfold Operator.betweenOperands? at found
    split at found <;>
      simp only [Option.some.injEq, Prod.mk.injEq, reduceCtorEq] at found <;>
      rcases found with ⟨rfl, rfl⟩ <;>
      rfl
  · rintro ⟨fixity, rfl⟩
    cases operator <;>
      simp only [Operator.fixity, Fixity.between.injEq, reduceCtorEq] at fixity <;>
      subst fixity <;>
      rfl

/-- The powers of operators between operands go from one to eleven. -/
theorem power_bounds {operator : Operator} {power : Nat}
    (fixity : operator.fixity = .between power) : 1 ≤ power ∧ power ≤ 11 := by
  cases operator <;> simp_all [Operator.fixity] <;> omega

/-- A token stands before an operand exactly if it is the sign of an operator
that does. -/
theorem beforeOperand?_eq_some_iff {token : Lexeme} {operator : Operator} :
    Operator.beforeOperand? token = some operator ↔
      operator.fixity = .before ∧ token = operator.sign := by
  constructor
  · intro found
    unfold Operator.beforeOperand? at found
    split at found <;>
      simp only [Option.some.injEq, reduceCtorEq] at found <;>
      subst found <;>
      exact ⟨rfl, rfl⟩
  · rintro ⟨fixity, rfl⟩
    cases operator <;> cases fixity <;> rfl

/-- The literals that are read are those of the grammar. -/
theorem literal?_eq_some_ok_iff {token : Lexeme} {value : Atom} :
    Parser.literal? token = some (.ok value) ↔ Literal token value := by
  constructor
  · intro found
    unfold Parser.literal? at found
    split at found
    · split at found
      · cases found
        exact .int _ (by assumption)
      · cases found
    all_goals cases found
    all_goals constructor
  · rintro (⟨value, bounded⟩ | _ | _ | _ | _ | _)
    · simp [Parser.literal?, bounded]
    all_goals rfl

end Expr

end AnalyzerGlue
