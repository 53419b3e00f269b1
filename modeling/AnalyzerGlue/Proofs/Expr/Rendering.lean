import AnalyzerGlue.Expr.Printer
import AnalyzerGlue.Proofs.Expr.Exactness
import AnalyzerGlue.Proofs.Expr.Joining

/-!
# What a rendered expression is read as

`Written` relates texts to tokens where a separating text may follow, and
`Reads` relates them to phrases of the grammar.  For each rule of the grammar
there is a lemma that reads the text of its result from the texts of its parts.
An expression is rendered with the power of some phrase of the grammar, so that
parentheses stand exactly where the phrase of an operand is looser than the
place it is put in.
-/

namespace AnalyzerGlue.Expr

open AnalyzerGlue.Token

/-! ## Texts and tokens -/

/-- Texts that are read as the tokens when a separating text follows. -/
structure Written (text : List Char) (tokens : List Lexeme) : Prop where
  before : ∀ {rest : List Char} {kinds : List Lexeme}, Separates rest → Spells rest kinds →
    Spells (text ++ rest) (tokens ++ kinds)

namespace Written

variable {text other : List Char} {tokens others : List Lexeme}

theorem nil : Written [] [] :=
  ⟨fun _ spells => spells⟩

theorem append (first : Written text tokens) (second : Written other others)
    (apart : ∀ {rest}, Separates rest → Separates (other ++ rest)) :
    Written (text ++ other) (tokens ++ others) := by
  constructor
  intro rest kinds separates spells
  rw [List.append_assoc, List.append_assoc]
  exact first.before (apart separates) (second.before separates spells)

theorem space (behind : Written text tokens) : Written (' ' :: text) tokens :=
  ⟨fun separates spells => .space (by decide) (behind.before separates spells)⟩

/-- A word or a literal. -/
theorem of_spelled {kind : Lexeme} (spelled : Spelled text kind)
    (noSign : ∀ sign, kind ≠ .symbol sign) : Written text [kind] :=
  ⟨fun separates spells => spells.spelled_append spelled noSign separates⟩

/-- A sign of one character that starts no longer one. -/
theorem sign {c : Char} {symbol : Symbol} (behind : Written text tokens)
    (single : Symbol.ofChar? c = some symbol) (noPair : ∀ d, Symbol.ofPair? c d = none) :
    Written (c :: text) (.symbol symbol :: tokens) :=
  ⟨fun separates spells =>
    .sign_cons single (fun d _ => noPair d) (behind.before separates spells)⟩

/-- A sign with a space behind it. -/
theorem sign_space (symbol : Symbol) (behind : Written text tokens) :
    Written (symbol.text.toList ++ ' ' :: text) (.symbol symbol :: tokens) := by
  constructor
  intro rest kinds separates spells
  rw [List.append_assoc]
  have spaced : Spells (' ' :: (text ++ rest)) (tokens ++ kinds) :=
    behind.space.before separates spells
  rcases symbol.text_cases with ⟨c, isText, single⟩ | ⟨c, d, isText, pair⟩
  · rw [isText]
    refine .sign_cons single ?_ spaced
    rintro d ⟨rfl⟩
    exact Symbol.ofPair?_space c
  · rw [isText]
    exact .pair_cons pair spaced

/-- What stands in round brackets. -/
theorem round (inside : Written text tokens) :
    Written ('(' :: (text ++ [')']))
      (.symbol .leftParen :: (tokens ++ [.symbol .rightParen])) := by
  have close : Written [')'] [.symbol .rightParen] := nil.sign rfl fun _ => rfl
  have closed : Written (text ++ [')']) (tokens ++ [.symbol .rightParen]) :=
    inside.append close fun _ => separates_cons (by decide) _
  exact closed.sign rfl fun _ => rfl

/-- What stands in square brackets. -/
theorem square (inside : Written text tokens) :
    Written ('[' :: (text ++ [']']))
      (.symbol .leftBracket :: (tokens ++ [.symbol .rightBracket])) := by
  have close : Written [']'] [.symbol .rightBracket] := nil.sign rfl fun _ => rfl
  have closed : Written (text ++ [']']) (tokens ++ [.symbol .rightBracket]) :=
    inside.append close fun _ => separates_cons (by decide) _
  exact closed.sign rfl fun _ => rfl

/-- Two texts with a comma and a space between them. -/
theorem comma (first : Written text tokens) (second : Written other others) :
    Written (text ++ ',' :: ' ' :: other) (tokens ++ .symbol .comma :: others) := by
  have behind : Written (',' :: ' ' :: other) (.symbol .comma :: others) :=
    second.space.sign rfl fun _ => rfl
  exact first.append behind fun _ => separates_cons (by decide) _

/-- Two texts with a sign and spaces between them. -/
theorem spaced (first : Written text tokens) (symbol : Symbol) (second : Written other others) :
    Written (text ++ ' ' :: (symbol.text.toList ++ ' ' :: other))
      (tokens ++ .symbol symbol :: others) :=
  first.append (second.sign_space symbol).space fun _ =>
    separates_cons (by decide) _

end Written

/-- The first character of a word is no digit and no question mark. -/
theorem exists_cons_of_spelled_word {text : List Char} {name : String}
    (spelled : Spelled text (.word name)) :
    ∃ c tail, text = c :: tail ∧ c.isDigit = false ∧ c ≠ '?' := by
  generalize same : Lexeme.word name = kind at spelled
  cases spelled with
  | @word c rest starts _ =>
      refine ⟨c, rest, rfl, ?_, ?_⟩
      · rw [Bool.eq_false_iff]
        intro digit
        exact absurd starts (by simp [Text.startsWord_eq_false_of_isDigit digit])
      · rintro rfl
        exact absurd starts (by decide)
  | dollars | dollarWord => exact ⟨'$', _, rfl, by decide, by decide⟩
  | _ => cases same

/-- Behind an access stands the name of a member. -/
theorem Written.access {operator : Operator} {name : String} (fixity : operator.fixity = .access)
    (spelled : Spelled name.toList (.word name)) :
    Written (operator.text.toList ++ name.toList) [operator.sign, .word name] ∧
      ∀ rest, Separates (operator.text.toList ++ name.toList ++ rest) := by
  have isWord : Written name.toList [.word name] := .of_spelled spelled (by simp)
  rcases exists_cons_of_spelled_word spelled with ⟨c, tail, isCons, noDigit, noQuestion⟩
  have noPair : Symbol.ofPair? '.' c = none := by
    simp [Symbol.ofPair?, noQuestion]
  cases operator <;> cases fixity
  · refine ⟨⟨fun separates spells => .sign_cons rfl ?_ (isWord.before separates spells)⟩,
      fun rest => ?_⟩
    · rw [isCons]
      rintro d ⟨rfl⟩
      exact noPair
    · rw [isCons]
      exact separates_dot noDigit _
  · exact ⟨⟨fun separates spells => .pair_cons rfl (isWord.before separates spells)⟩,
      fun rest => separates_dot (by decide) _⟩
  · exact ⟨⟨fun separates spells => .pair_cons rfl (isWord.before separates spells)⟩,
      fun rest => separates_cons (by decide) _⟩

/-- An operator between its operands is `in` or written with a sign. -/
theorem text_of_between {operator : Operator} {power : Nat}
    (fixity : operator.fixity = .between power) :
    operator = .isIn ∨ ∃ symbol, operator.sign = .symbol symbol ∧ operator.text = symbol.text := by
  cases operator <;> cases fixity
  case isIn.refl => exact .inl rfl
  all_goals exact .inr ⟨_, rfl, rfl⟩

theorem Written.between {operator : Operator} {power : Nat} {text other : List Char}
    {tokens others : List Lexeme} (fixity : operator.fixity = .between power)
    (first : Written text tokens) (second : Written other others) :
    Written (text ++ ' ' :: (operator.text.toList ++ ' ' :: other))
      (tokens ++ operator.sign :: others) := by
  rcases text_of_between fixity with rfl | ⟨symbol, isSign, isText⟩
  · have isWord : Written Operator.isIn.text.toList [.isIn] :=
      .of_spelled (@Spelled.word 'i' ['n'] (by decide) (by decide)) (by simp)
    have behind : Written (' ' :: (Operator.isIn.text.toList ++ ' ' :: other)) (.isIn :: others) :=
      (isWord.append second.space fun _ => separates_cons (by decide) _).space
    exact first.append behind fun _ => separates_cons (by decide) _
  · rw [isSign, isText]
    exact first.spaced symbol second

/-! ## Phrases -/

/-- Whether a text is read as a phrase when a separating text follows. -/
def Reads (location : Option Location) (phrase : Phrase) (text : List Char) : Prop :=
  ∃ tokens, Derives location phrase tokens ∧ Written text tokens

namespace Reads

variable {location : Option Location} {text other : List Char} {tree : Expr}

/-- What is in parentheses may be any conditional expression. -/
theorem group (inner : Reads location (.ternary tree) text) :
    Reads location (.primary tree) ('(' :: (text ++ [')'])) := by
  rcases inner with ⟨tokens, derived, written⟩
  exact ⟨_, .group derived, written.round⟩

theorem vector {elements : List Expr} (list : Reads location (.items elements) text) :
    Reads location (.primary (.vector elements location)) ('[' :: (text ++ [']'])) := by
  rcases list with ⟨tokens, derived, written⟩
  exact ⟨_, .vector derived, written.square⟩

theorem call {callee : Expr} {arguments : List Expr} (before : Reads location (.chain callee) text)
    (noMember : ¬ callee.IsMember) (list : Reads location (.items arguments) other) :
    Reads location (.chain (.apply .call (callee :: arguments) location))
      (text ++ '(' :: (other ++ [')'])) := by
  rcases before with ⟨first, derived, written⟩
  rcases list with ⟨inside, listDerived, listWritten⟩
  refine ⟨_, .call derived ?_ listDerived, written.append listWritten.round fun _ =>
    separates_cons (by decide) _⟩
  intro ends
  rcases derived.eq_member_of_endsInMember ends with ⟨receiver, name, rfl⟩
  exact noMember trivial

theorem index {container position : Expr} (before : Reads location (.chain container) text)
    (inner : Reads location (.ternary position) other) :
    Reads location (.chain (.apply .index [container, position] location))
      (text ++ '[' :: (other ++ [']'])) := by
  rcases before with ⟨first, derived, written⟩
  rcases inner with ⟨inside, innerDerived, innerWritten⟩
  exact ⟨_, .index derived innerDerived, written.append innerWritten.square fun _ =>
    separates_cons (by decide) _⟩

theorem access {operator : Operator} {receiver : Expr} {name : String}
    (fixity : operator.fixity = .access) (before : Reads location (.chain receiver) text)
    (spelled : Spelled name.toList (.word name)) :
    Reads location (.chain (.apply operator [receiver, .atom (.member name) location] location))
      (text ++ (operator.text.toList ++ name.toList)) := by
  rcases before with ⟨first, derived, written⟩
  rcases Written.access fixity spelled with ⟨behind, apart⟩
  exact ⟨_, .access name fixity derived, written.append behind fun _ => apart _⟩

theorem methodCall {receiver : Expr} {arguments : List Expr} {name : String}
    (before : Reads location (.chain receiver) text) (spelled : Spelled name.toList (.word name))
    (list : Reads location (.items arguments) other) :
    Reads location
      (.chain
        (.apply .methodCall (receiver :: .atom (.member name) location :: arguments) location))
      (text ++ (('.' :: name.toList) ++ '(' :: (other ++ [')']))) := by
  rcases before with ⟨first, derived, written⟩
  rcases list with ⟨inside, listDerived, listWritten⟩
  rcases @Written.access .member name rfl spelled with ⟨dotted, apart⟩
  have behind : Written (('.' :: name.toList) ++ '(' :: (other ++ [')']))
      ([.symbol .dot, .word name] ++ .symbol .leftParen :: (inside ++ [.symbol .rightParen])) :=
    dotted.append listWritten.round fun _ => separates_cons (by decide) _
  refine ⟨_, .methodCall name derived listDerived, written.append behind fun _ => ?_⟩
  rw [List.append_assoc]
  exact apart _

theorem between {operator : Operator} {power : Nat} {left right : Expr}
    (fixity : operator.fixity = .between power) (before : Reads location (.level power left) text)
    (behind : Reads location (.level (power + 1) right) other) :
    Reads location (.level power (.apply operator [left, right] location))
      (text ++ ' ' :: (operator.text.toList ++ ' ' :: other)) := by
  rcases before with ⟨first, derived, written⟩
  rcases behind with ⟨second, behindDerived, behindWritten⟩
  exact ⟨_, .between fixity derived behindDerived, .between fixity written behindWritten⟩

theorem conditional {condition yes no : Expr} {third : List Char}
    (test : Reads location (.level 1 condition) text)
    (whenTrue : Reads location (.ternary yes) other)
    (whenFalse : Reads location (.ternary no) third) :
    Reads location (.ternary (.ternary condition yes no location))
      (text ++ ' ' :: '?' :: ' ' :: (other ++ ' ' :: ':' :: ' ' :: third)) := by
  rcases test with ⟨first, testDerived, testWritten⟩
  rcases whenTrue with ⟨second, trueDerived, trueWritten⟩
  rcases whenFalse with ⟨last, falseDerived, falseWritten⟩
  exact ⟨_, .conditional testDerived trueDerived falseDerived,
    testWritten.spaced .question (trueWritten.spaced .colon falseWritten)⟩

/-- A sign before an operand does not grow longer by it. -/
theorem before {operator : Operator} {operand : Expr} (fixity : operator.fixity = .before)
    (behind : Reads location (.level 12 operand) text) :
    Reads location (.level 12 (.apply operator [operand] location))
      (operator.text.toList ++ text) := by
  rcases behind with ⟨tokens, derived, written⟩
  rcases derived.exists_first with isEmpty | ⟨first, others, rfl, starts⟩
  · cases isEmpty
  refine ⟨_, .before fixity derived, ⟨fun separates spells => ?_⟩⟩
  have spellsBehind := written.before separates spells
  have noAssign := head?_ne_of_startsExpr (c := '=') rfl
    (fun sign first => by cases sign <;> cases first <;> rfl) spellsBehind starts
  cases operator <;> cases fixity
  · refine .sign_cons rfl ?_ spellsBehind
    intro d isHead
    have notAssign : d ≠ '=' := by
      rintro rfl
      exact noAssign isHead
    show Symbol.ofPair? '!' d = none
    simp [Symbol.ofPair?, notAssign]
  all_goals exact .sign_cons rfl (fun _ _ => rfl) spellsBehind

/-- The parts of a name stand behind a text one after the other. -/
theorem written_pathName {start : String} {tokens : List Lexeme} {parts : List String}
    (before : Written start.toList tokens)
    (spelled : ∀ part ∈ parts, Spelled part.toList (.word part)) :
    Written (pathName start parts).text.toList
      (tokens ++ parts.flatMap fun part => [.symbol .doubleColon, .word part]) := by
  induction parts generalizing start tokens with
  | nil => simpa [pathName] using before
  | cons part parts ih =>
      rcases List.forall_mem_cons.mp spelled with ⟨here, behind⟩
      have isWord : Written part.toList [.word part] := .of_spelled here (by simp)
      have colons : Written (':' :: ':' :: part.toList) [.symbol .doubleColon, .word part] :=
        ⟨fun separates spells => .pair_cons rfl (isWord.before separates spells)⟩
      have extended : Written (start ++ "::" ++ part).toList
          (tokens ++ [.symbol .doubleColon, .word part]) := by
        simpa using before.append colons fun _ => separates_cons (by decide) _
      have written := ih extended behind
      rw [pathName_cons, List.flatMap_cons, ← List.append_assoc]
      exact written

theorem name {start : String} {parts : List String} (spelled : Spelled start.toList (.word start))
    (others : ∀ part ∈ parts, Spelled part.toList (.word part)) :
    Reads location (.primary (.atom (.id (pathName start parts)) location))
      (pathName start parts).text.toList :=
  ⟨_, .name start parts, written_pathName (.of_spelled spelled (by simp)) others⟩

theorem literal {token : Lexeme} {value : Atom} (denotes : Literal token value)
    (spelled : Spelled text token) :
    Reads location (.primary (.atom value location)) text := by
  refine ⟨_, .literal denotes, .of_spelled spelled ?_⟩
  rintro sign rfl
  cases denotes

/-- Items with a comma and a space between each two of them. -/
theorem list {trees : List Expr}
    (each : ∀ tree ∈ trees, Reads location (.ternary tree.joined) tree.piece.text) :
    Reads location (.items (joinedOf trees)) (Piece.list (pieces trees)) := by
  induction trees with
  | nil => exact ⟨_, .none, .nil⟩
  | cons first others ih =>
      rcases List.forall_mem_cons.mp each with ⟨⟨tokens, derived, written⟩, behind⟩
      cases others with
      | nil => exact ⟨_, .last derived, written⟩
      | cons second others =>
          rcases ih behind with ⟨inside, listDerived, listWritten⟩
          have commaWritten := written.comma listWritten
          exact ⟨_, .more derived listDerived, by
            simpa [Piece.list, pieces, Text.joinWith] using commaWritten⟩

/-- A tuple, whose single item has a comma behind it. -/
theorem tuple {trees : List Expr}
    (each : ∀ tree ∈ trees, Reads location (.ternary tree.joined) tree.piece.text) :
    Reads location (.primary (.tuple (joinedOf trees) location)) (tupleText (pieces trees)) := by
  cases trees with
  | nil => exact ⟨_, .unit, Written.nil.round⟩
  | cons first others =>
      rcases List.forall_mem_cons.mp each with ⟨⟨start, derived, written⟩, behind⟩
      cases others with
      | nil =>
          have comma : Written [','] [.symbol .comma] := Written.nil.sign rfl fun _ => rfl
          have item : Written (first.piece.text ++ [',']) (start ++ [.symbol .comma]) :=
            written.append comma fun _ => separates_cons (by decide) _
          exact ⟨_, .tuple derived .none, by simpa [tupleText, pieces] using item.round⟩
      | cons second others =>
          rcases list behind with ⟨inside, listDerived, listWritten⟩
          have items := (written.comma listWritten).round
          exact ⟨_, .tuple derived listDerived, by
            simpa [tupleText, Piece.list, pieces, Text.joinWith] using items⟩

end Reads

/-! ## Powers and places -/

/-- The phrase that an operand of at least the given power may be. -/
def Phrase.atPower (power : Nat) (tree : Expr) : Phrase :=
  if power ≤ ternaryPower then .ternary tree
  else if power ≤ beforePower then .level (power - 1) tree
  else .chain tree

@[simp]
theorem Phrase.atPower_ternaryPower (tree : Expr) :
    Phrase.atPower ternaryPower tree = .ternary tree := rfl

@[simp]
theorem Phrase.atPower_atomPower (tree : Expr) :
    Phrase.atPower atomPower tree = .chain tree := rfl

theorem Phrase.atPower_succ {power : Nat} (tree : Expr) (low : 1 ≤ power) (high : power ≤ 12) :
    Phrase.atPower (power + 1) tree = .level power tree := by
  rw [atPower, if_neg (by simp [ternaryPower]; omega), if_pos (by simp [beforePower]; omega),
    Nat.add_sub_cancel]

section

variable {location : Option Location} {text : List Char} {tree : Expr}

/-- A chain may stand in every place. -/
theorem Derives.atPower_of_chain {tokens : List Lexeme}
    (derived : Derives location (.chain tree) tokens) (power : Nat) :
    Derives location (.atPower power tree) tokens := by
  have unsigned : Derives location (.level 12 tree) tokens := .unsigned derived
  unfold Phrase.atPower
  split
  · exact .plain (unsigned.lower (by omega) (by omega) (by omega))
  · split
    · rename_i low high
      simp only [ternaryPower, beforePower] at low high
      exact unsigned.lower (by omega) (by omega) (by omega)
    · exact derived

/-- An expression of some level may stand where at most its power is needed. -/
theorem Derives.atPower_of_level {tokens : List Lexeme} {level least : Nat}
    (derived : Derives location (.level level tree) tokens) (bounded : level ≤ 12)
    (positive : 1 ≤ level) (le : least ≤ level + 1) :
    Derives location (.atPower least tree) tokens := by
  unfold Phrase.atPower
  split
  · exact .plain (derived.lower (Nat.le_refl 1) positive bounded)
  · rename_i low
    simp only [ternaryPower] at low
    rw [if_pos (by simp only [beforePower]; omega)]
    exact derived.lower (by omega) (by omega) bounded

/-- What may stand in a place may stand where less power is needed. -/
theorem Derives.atPower_le {tokens : List Lexeme} {least power : Nat}
    (derived : Derives location (.atPower power tree) tokens) (le : least ≤ power) :
    Derives location (.atPower least tree) tokens := by
  unfold Phrase.atPower at derived
  split at derived
  · rename_i loose
    rwa [Phrase.atPower, if_pos (Nat.le_trans le loose)]
  · split at derived
    · rename_i low high
      simp only [ternaryPower, beforePower] at low high
      exact derived.atPower_of_level (by omega) (by omega) (by omega)
    · exact derived.atPower_of_chain least

/-- An operand is put in parentheses if its place needs more power than it has. -/
theorem Reads.asOperand {piece : Piece}
    (reads : Reads location (.atPower piece.power tree) piece.text) (least : Nat) :
    Reads location (.atPower least tree) (piece.asOperand least) := by
  unfold Piece.asOperand
  split
  · rcases reads with ⟨tokens, derived, written⟩
    have inner : Reads location (.ternary tree) piece.text :=
      ⟨tokens, derived.atPower_le (Nat.zero_le _), written⟩
    rcases inner.group with ⟨grouped, primary, groupWritten⟩
    exact ⟨grouped, (Derives.single primary).atPower_of_chain least, groupWritten⟩
  · rename_i enough
    rcases reads with ⟨tokens, derived, written⟩
    exact ⟨tokens, derived.atPower_le (Nat.le_of_not_lt enough), written⟩

end

/-! ## Rendered expressions -/

/-- Expressions whose text is read as the expression with its calls joined.  The
receiver of an access is kept apart, since a call behind it takes the name of
the member for the name of a method. -/
structure Rendered (location : Option Location) (tree : Expr) : Prop where
  reads : Reads location (.atPower tree.piece.power tree.joined) tree.piece.text
  receiver : tree.IsMember → ∃ receiver name,
    tree = .apply .member [receiver, .atom (.member name) location] location ∧
      Reads location (.chain receiver.joined) (receiver.piece.asOperand atomPower) ∧
      Spelled name.toList (.word name)

namespace Rendered

variable {location : Option Location} {tree : Expr}

/-- For most expressions it is enough to know how they are read. -/
theorem of_reads (noMember : ¬ tree.IsMember)
    (reads : Reads location (.atPower tree.piece.power tree.joined) tree.piece.text) :
    Rendered location tree :=
  ⟨reads, fun isMember => absurd isMember noMember⟩

theorem ternary (rendered : Rendered location tree) :
    Reads location (.ternary tree.joined) tree.piece.text := by
  rcases rendered.reads with ⟨tokens, derived, written⟩
  exact ⟨tokens, derived.atPower_le (Nat.zero_le _), written⟩

theorem chain (rendered : Rendered location tree) :
    Reads location (.chain tree.joined) (tree.piece.asOperand atomPower) :=
  rendered.reads.asOperand atomPower

theorem level (rendered : Rendered location tree) {power : Nat} (low : 1 ≤ power)
    (high : power ≤ 12) :
    Reads location (.level power tree.joined) (tree.piece.asOperand (power + 1)) := by
  have reads := rendered.reads.asOperand (power + 1)
  rwa [Phrase.atPower_succ _ low high] at reads

theorem conditional {condition yes no : Expr} (test : Rendered location condition)
    (whenTrue : Rendered location yes) (whenFalse : Rendered location no) :
    Rendered location (.ternary condition yes no location) := by
  rcases whenTrue.level (Nat.le_refl 1) (by decide) with ⟨tokens, derived, written⟩
  have first : Reads location (.level 1 condition.joined)
      (condition.piece.asOperand (ternaryPower + 1)) := test.level (Nat.le_refl 1) (by decide)
  have second : Reads location (.ternary yes.joined) (yes.piece.asOperand (ternaryPower + 1)) :=
    ⟨tokens, .plain derived, written⟩
  have third : Reads location (.ternary no.joined) (no.piece.asOperand ternaryPower) :=
    whenFalse.reads.asOperand ternaryPower
  refine of_reads id ?_
  simpa [piece, joined] using first.conditional second third

theorem between {operator : Operator} {power : Nat} {left right : Expr}
    (fixity : operator.fixity = .between power) (before : Rendered location left)
    (behind : Rendered location right) :
    Rendered location (.apply operator [left, right] location) := by
  rcases power_bounds fixity with ⟨low, high⟩
  have first := before.level low (by omega)
  have second : Reads location (.level (power + 1) right.joined)
      (right.piece.asOperand (power + 2)) := behind.level (by omega) (by omega)
  refine of_reads ?_ ?_
  · cases operator <;> cases fixity <;> exact id
  · have noCall : operator ≠ .call := by
      rintro rfl
      cases fixity
    simp only [piece_apply, pieces, joined, joinedOf, joinedApply_of_ne_call noCall,
      Operator.textWith, fixity, Fixity.power]
    rw [Phrase.atPower_succ _ low (by omega)]
    simpa using first.between fixity second

theorem before {operator : Operator} {operand : Expr} (fixity : operator.fixity = .before)
    (behind : Rendered location operand) :
    Rendered location (.apply operator [operand] location) := by
  have reads : Reads location (.level 12 operand.joined) (operand.piece.asOperand beforePower) :=
    behind.level (by decide) (by decide)
  refine of_reads ?_ ?_
  · cases operator <;> cases fixity <;> exact id
  · have noCall : operator ≠ .call := by
      rintro rfl
      cases fixity
    simp only [piece_apply, pieces, joined, joinedOf, joinedApply_of_ne_call noCall,
      Operator.textWith, fixity, Fixity.power]
    exact reads.before fixity

theorem index {container position : Expr} (before : Rendered location container)
    (inner : Rendered location position) :
    Rendered location (.apply .index [container, position] location) := by
  have reads := before.chain.index inner.ternary
  refine of_reads id ?_
  simpa [piece_apply, pieces, joined, joinedOf, joinedApply_of_ne_call, Operator.textWith,
    Operator.fixity, Fixity.power] using reads

theorem access {operator : Operator} {receiver : Expr} {name : String}
    (fixity : operator.fixity = .access) (before : Rendered location receiver)
    (spelled : Spelled name.toList (.word name)) :
    Rendered location (.apply operator [receiver, .atom (.member name) location] location) := by
  have noCall : operator ≠ .call := by
    rintro rfl
    cases fixity
  have reads := before.chain.access fixity spelled
  constructor
  · simpa [piece, pieces, joined, joinedOf, joinedApply_of_ne_call noCall, Operator.textWith,
      fixity, Fixity.power, Atom.piece] using reads
  · intro isMember
    cases operator <;> cases fixity
    · exact ⟨receiver, name, rfl, before.chain, spelled⟩
    all_goals cases isMember

theorem methodCall {receiver : Expr} {arguments : List Expr} {name : String}
    (before : Rendered location receiver) (spelled : Spelled name.toList (.word name))
    (each : ∀ argument ∈ arguments, Rendered location argument) :
    Rendered location
      (.apply .methodCall (receiver :: .atom (.member name) location :: arguments) location) := by
  have list := Reads.list fun argument member => (each argument member).ternary
  have reads := before.chain.methodCall spelled list
  refine of_reads id ?_
  simpa [piece, pieces, joined, joinedOf, joinedApply_of_ne_call, Operator.textWith,
    Operator.fixity, Fixity.power, Atom.piece] using reads

/-- A call of a member is read as a method call. -/
theorem call {callee : Expr} {arguments : List Expr} (before : Rendered location callee)
    (each : ∀ argument ∈ arguments, Rendered location argument) :
    Rendered location (.apply .call (callee :: arguments) location) := by
  have list := Reads.list fun argument member => (each argument member).ternary
  refine of_reads id ?_
  by_cases isMember : callee.IsMember
  · rcases before.receiver isMember with ⟨receiver, name, rfl, receiverReads, spelled⟩
    have reads := receiverReads.methodCall spelled list
    simpa [piece, pieces, joined, joinedOf, joinedApply, Operator.textWith,
      Operator.fixity, Fixity.power, Atom.piece, Piece.asOperand, Operator.text] using reads
  · have noMember : ¬ callee.joined.IsMember := mt isMember_joined_iff.mp isMember
    have reads := before.chain.call noMember list
    simpa [piece_apply, pieces, joined, joinedOf, joinedApply_call_of_not_isMember noMember,
      Operator.textWith, Operator.fixity, Fixity.power] using reads

theorem name {start : String} {parts : List String} (spelled : Spelled start.toList (.word start))
    (others : ∀ part ∈ parts, Spelled part.toList (.word part)) :
    Rendered location (.atom (.id (pathName start parts)) location) := by
  rcases @Reads.name location start parts spelled others with ⟨tokens, derived, written⟩
  exact of_reads id ⟨tokens, .single derived, written⟩

theorem tuple {items : List Expr} (each : ∀ item ∈ items, Rendered location item) :
    Rendered location (.tuple items location) := by
  rcases Reads.tuple fun item member => (each item member).ternary with ⟨tokens, derived, written⟩
  exact of_reads id ⟨tokens, .single derived, written⟩

theorem vector {items : List Expr} (each : ∀ item ∈ items, Rendered location item) :
    Rendered location (.vector items location) := by
  have list := Reads.list fun item member => (each item member).ternary
  rcases list.vector with ⟨tokens, derived, written⟩
  exact of_reads id ⟨tokens, .single derived, written⟩

end Rendered

/-- The escaped characters of a text stand for the text. -/
theorem escaped_flatMap_escapeChar (text : List Char) : Escaped (text.flatMap escapeChar) text := by
  induction text with
  | nil => exact .nil
  | cons c rest ih =>
      rw [List.flatMap_cons]
      unfold escapeChar
      split
      case h_6 noQuote noEscape _ _ _ => exact .plain noQuote noEscape ih
      all_goals exact .simple rfl ih

/-- A literal is written in one of the ways in which its token may be spelled. -/
theorem spelled_piece_of_literal {token : Lexeme} {value : Atom} {spelling : List Char}
    (denotes : Literal token value) (spelled : Spelled spelling token) :
    Spelled value.piece.text token ∧ value.piece.power = atomPower := by
  cases denotes with
  | int value bounded =>
      refine ⟨spelled_toDigits ?_, rfl⟩
      simp only [Text.maxSigned, Text.maxWord] at bounded ⊢
      omega
  | real text =>
      rw [spelled.eq_toList_of_real] at spelled
      exact ⟨spelled, rfl⟩
  | string text =>
      have quoted := Spelled.string (escaped_flatMap_escapeChar text.toList)
      rw [String.ofList_toList] at quoted
      exact ⟨quoted, rfl⟩
  | bytes text =>
      have quoted := Spelled.bytes (escaped_flatMap_escapeChar text.toList)
      rw [String.ofList_toList] at quoted
      exact ⟨quoted, rfl⟩
  | bool value =>
      cases value
      · exact ⟨@Spelled.word 'F' ['a', 'l', 's', 'e'] (by decide) (by decide), rfl⟩
      · exact ⟨@Spelled.word 'T' ['r', 'u', 'e'] (by decide) (by decide), rfl⟩
  | null => exact ⟨@Spelled.word 'N' ['u', 'l', 'l'] (by decide) (by decide), rfl⟩

theorem Rendered.literal {location : Option Location} {token : Lexeme} {value : Atom}
    {spelling : List Char} (denotes : Literal token value) (spelled : Spelled spelling token) :
    Rendered location (.atom value location) := by
  rcases spelled_piece_of_literal denotes spelled with ⟨pieceSpelled, isAtom⟩
  rcases @Reads.literal location _ _ _ denotes pieceSpelled with ⟨tokens, derived, written⟩
  refine .of_reads id ⟨tokens, ?_, written⟩
  rw [piece, isAtom]
  exact .single derived

theorem spelled_toList_of_word {name : String}
    (spelled : ∃ spelling, Spelled spelling (.word name)) : Spelled name.toList (.word name) := by
  rcases spelled with ⟨spelling, isWord⟩
  rwa [← isWord.eq_toList_of_word]

/-- Phrases all of whose trees are read back. -/
def RenderedPhrase (location : Option Location) : Phrase → Prop
  | .ternary tree | .level _ tree | .chain tree | .primary tree => Rendered location tree
  | .items trees => ∀ tree ∈ trees, Rendered location tree

/-- Every phrase that is derived from tokens with a spelling is read back. -/
theorem rendered_of_derives {location : Option Location} {phrase : Phrase}
    {tokens : List Lexeme} (derived : Derives location phrase tokens)
    (spelled : ∀ token ∈ tokens, ∃ spelling, Spelled spelling token) :
    RenderedPhrase location phrase := by
  induction derived with
  | plain _ ih | tighter _ _ _ ih | unsigned _ ih | single _ ih => exact ih spelled
  | conditional _ _ _ test whenTrue whenFalse =>
      simp only [List.forall_mem_append, List.forall_mem_cons] at spelled
      rcases spelled with ⟨first, -, second, -, third⟩
      exact Rendered.conditional (test first) (whenTrue second) (whenFalse third)
  | between fixity _ _ before behind =>
      simp only [List.forall_mem_append, List.forall_mem_cons] at spelled
      rcases spelled with ⟨first, -, second⟩
      exact Rendered.between fixity (before first) (behind second)
  | before fixity _ behind =>
      exact Rendered.before fixity (behind (List.forall_mem_cons.mp spelled).2)
  | call _ _ _ before list =>
      simp only [List.forall_mem_append, List.forall_mem_cons] at spelled
      rcases spelled with ⟨first, -, inside, -⟩
      exact Rendered.call (before first) (list inside)
  | index _ _ before inner =>
      simp only [List.forall_mem_append, List.forall_mem_cons] at spelled
      rcases spelled with ⟨first, -, inside, -⟩
      exact Rendered.index (before first) (inner inside)
  | access name fixity _ before =>
      simp only [List.forall_mem_append, List.forall_mem_cons] at spelled
      rcases spelled with ⟨first, -, isWord, -⟩
      exact Rendered.access fixity (before first) (spelled_toList_of_word isWord)
  | methodCall name _ _ before list =>
      simp only [List.forall_mem_append, List.forall_mem_cons] at spelled
      rcases spelled with ⟨first, -, isWord, -, inside, -⟩
      exact Rendered.methodCall (before first) (spelled_toList_of_word isWord) (list inside)
  | name start parts =>
      simp only [pathTokens, List.forall_mem_cons, List.forall_mem_flatMap] at spelled
      rcases spelled with ⟨isWord, others⟩
      exact Rendered.name (spelled_toList_of_word isWord) fun part member =>
        spelled_toList_of_word (others part member).2.1
  | literal denotes =>
      rcases (List.forall_mem_cons.mp spelled).1 with ⟨spelling, isLiteral⟩
      exact Rendered.literal denotes isLiteral
  | unit => exact Rendered.tuple (by simp)
  | group _ ih =>
      simp only [List.forall_mem_append, List.forall_mem_cons] at spelled
      exact ih spelled.2.1
  | tuple _ _ item list =>
      simp only [List.forall_mem_append, List.forall_mem_cons] at spelled
      rcases spelled with ⟨-, start, -, inside, -⟩
      exact Rendered.tuple (List.forall_mem_cons.mpr ⟨item start, list inside⟩)
  | vector _ list =>
      simp only [List.forall_mem_append, List.forall_mem_cons] at spelled
      exact Rendered.vector (list spelled.2.1)
  | none => exact fun _ absurd => by cases absurd
  | last _ inner => exact List.forall_mem_cons.mpr ⟨inner spelled, by simp⟩
  | more _ _ inner list =>
      simp only [List.forall_mem_append, List.forall_mem_cons] at spelled
      rcases spelled with ⟨first, -, inside⟩
      exact List.forall_mem_cons.mpr ⟨inner first, list inside⟩

end AnalyzerGlue.Expr
