import AnalyzerGlue.Proofs.Expr.Completeness
import AnalyzerGlue.Proofs.Token.Reading

/-!
# The parser accepts exactly the grammar

On every list that ends with the end of the text, and has it nowhere else, the
parser succeeds with a tree if and only if the tokens before the end derive
that tree.  The grammar is unambiguous, because the parser is a function.  A
text is accepted if and only if its tokens are.
-/

namespace AnalyzerGlue.Expr

open AnalyzerGlue.Expr.Parser

variable {location : Option Location}

/-- The tokens of an accepted list derive the tree that is returned. -/
theorem derives_of_ofTokens_eq_ok {tokens : List Token} {last : Token} {tree : Expr}
    (ends : last.kind = .eof) (inside : ∀ token ∈ tokens, token.kind ≠ .eof)
    (accepted : ofTokens (tokens ++ [last]) location = .ok tree) :
    Derives location (.ternary tree) (kinds tokens) := by
  have terminated : Terminated (tokens ++ [last]) :=
    terminated_append_singleton_iff.mpr ⟨ends, inside⟩
  unfold ofTokens at accepted
  split at accepted
  · rename_i result rest read
    cases accepted
    rw [whole, bind_eq_ok_iff] at read
    rcases read with ⟨found, middle, treeRead, read⟩
    rcases (sound location _).ternary terminated treeRead with ⟨taken, leaves, derived⟩
    rw [peek_bind] at read
    split at read
    · rename_i atEnd
      rcases pure_eq_ok_iff.mp read with ⟨rfl, rfl⟩
      have split : kinds tokens ++ [.eof] = taken ++ [.eof] := by
        calc
          kinds tokens ++ [.eof] = kinds (tokens ++ [last]) := by simp [kinds, ends]
          _ = taken ++ [.eof] := by
                rw [leaves.split, leaves.terminated.kinds_of_front atEnd]
      rwa [(List.append_inj' split rfl).1]
    · cases read
  · cases accepted

/-- A list whose tokens before the end derive a tree is accepted with it. -/
theorem ofTokens_eq_ok_of_derives {tokens : List Token} {last : Token} {tree : Expr}
    (ends : last.kind = .eof) (derived : Derives location (.ternary tree) (kinds tokens)) :
    ofTokens (tokens ++ [last]) location = .ok tree := by
  have read : Parser.ternary location (fuelFor (tokens ++ [last]).length) (tokens ++ [last]) =
      .ok (tree, [last]) := by
    refine complete derived ?_ ⟨tokens, rfl, rfl, by simp⟩ ?_
    · simp only [fuelFor, kinds, List.length_map, List.length_append]
      omega
    · rw [front, ends]
      rfl
  have wholeRead : whole location (fuelFor (tokens ++ [last]).length) (tokens ++ [last]) =
      .ok (tree, [last]) := by
    rw [whole, bind_eq_of_eq_ok read, peek_bind, front, if_pos ends]
    rfl
  rw [ofTokens, wholeRead]

/-- Tokens derive at most one tree. -/
theorem eq_of_derives {kinds : List Lexeme} {tree other : Expr}
    (derived : Derives location (.ternary tree) kinds)
    (otherDerived : Derives location (.ternary other) kinds) : tree = other := by
  -- Any columns will do, since the grammar does not see them.
  let tokens := kinds.map fun kind => Token.mk kind 0
  have isKinds : Parser.kinds tokens = kinds := by
    simp [tokens, Parser.kinds, Function.comp_def]
  rw [← isKinds] at derived otherDerived
  have accepted : ofTokens (tokens ++ [⟨.eof, 0⟩]) location = .ok tree :=
    ofTokens_eq_ok_of_derives rfl derived
  have otherAccepted : ofTokens (tokens ++ [⟨.eof, 0⟩]) location = .ok other :=
    ofTokens_eq_ok_of_derives rfl otherDerived
  exact Except.ok.inj (accepted.symm.trans otherAccepted)

/-- The text of an expression does not start with a character that only starts
signs which start no expression. -/
theorem head?_ne_of_startsExpr {c : Char} {single : Symbol} {text : List Char} {first : Lexeme}
    {kinds : List Lexeme} (isSign : Symbol.ofChar? c = some single)
    (never : ∀ sign : Symbol, sign.text.toList.head? = some c → startsExpr (.symbol sign) = false)
    (spells : Token.Spells text (first :: kinds)) (starts : startsExpr first = true) :
    text.head? ≠ some c := by
  intro isHead
  rcases List.head?_eq_some_iff.mp isHead with ⟨rest, rfl⟩
  rcases Token.lexeme_of_ofChar? isSign rest with ⟨visible, isRead⟩
  cases spells with
  | space blank _ => exact absurd blank (by simp [visible])
  | token _ read _ =>
      rw [isRead] at read
      split at read
      · rename_i sign left found
        cases read
        have isText := Symbol.eq_append_of_read_eq_some found
        have isFirst : sign.text.toList.head? = some c := by
          rcases sign.text_cases with ⟨d, isCons, _⟩ | ⟨d, e, isCons, _⟩ <;>
            rw [isCons] at isText ⊢ <;> cases isText <;> rfl
        exact absurd starts (by simp [never sign isFirst])
      · cases read

/-- A text is accepted with a tree exactly if it is made of tokens that derive
the tree. -/
theorem parse_eq_ok_iff {text : String} {tree : Expr} :
    parse text location = .ok tree ↔
      ∃ kinds, Token.Spells text.toList kinds ∧ Derives location (.ternary tree) kinds := by
  constructor
  · intro accepted
    unfold parse at accepted
    split at accepted
    · cases accepted
    · rename_i tokens read
      rcases Token.spells_of_tokenize_eq_ok read with ⟨front, rfl, spells⟩
      refine ⟨kinds front, spells, ?_⟩
      have inside : ∀ token ∈ front, token.kind ≠ .eof := by
        intro token member
        rcases spells.spelled_of_mem _ (List.mem_map_of_mem member) with ⟨spelling, spelled⟩
        exact spelled.ne_eof
      split at accepted
      · rename_i treeRead
        cases accepted
        exact derives_of_ofTokens_eq_ok rfl inside treeRead
      · cases accepted
  · rintro ⟨isKinds, spells, derived⟩
    rcases Token.exists_tokenize_eq_ok_of_spells spells with ⟨front, read, rfl⟩
    have accepted : ofTokens (front ++ [⟨.eof, text.toList.length + 1⟩]) location = .ok tree :=
      ofTokens_eq_ok_of_derives rfl derived
    simp only [parse, read, accepted]

/-- On a list that ends with the end of the text, and has it nowhere else, the
parser returns a tree exactly if the tokens before the end derive it.  They
derive no other tree, and each of its nodes is at the location of the parser. -/
theorem ofTokens_exact (location : Option Location) (tokens : List Token) (last : Token)
    (ends : last.kind = .eof) (inside : ∀ token ∈ tokens, token.kind ≠ .eof) :
    (∀ tree, ofTokens (tokens ++ [last]) location = .ok tree ↔
      Derives location (.ternary tree) (kinds tokens)) ∧
    (∀ tree other, Derives location (.ternary tree) (kinds tokens) →
      Derives location (.ternary other) (kinds tokens) → tree = other) ∧
    ∀ tree, ofTokens (tokens ++ [last]) location = .ok tree →
      ∀ node ∈ tree.nodes, node.location = location := by
  refine ⟨fun tree => ⟨derives_of_ofTokens_eq_ok ends inside, ofTokens_eq_ok_of_derives ends⟩,
    fun tree other => eq_of_derives, ?_⟩
  intro tree accepted
  have derived := derives_of_ofTokens_eq_ok ends inside accepted
  exact derived.at_of_mem_trees tree (List.mem_singleton.mpr rfl)

/-- The tokens of `a.b(-c,) ? d : e * 2`, with a method call, a sign and a comma
behind the last argument. -/
theorem ofTokens_exact_conditional :
    let tokens : List Token :=
      [⟨.word "a", 1⟩, ⟨.symbol .dot, 2⟩, ⟨.word "b", 3⟩, ⟨.symbol .leftParen, 4⟩,
        ⟨.symbol .minus, 5⟩, ⟨.word "c", 6⟩, ⟨.symbol .comma, 7⟩, ⟨.symbol .rightParen, 8⟩,
        ⟨.symbol .question, 10⟩, ⟨.word "d", 12⟩, ⟨.symbol .colon, 14⟩, ⟨.word "e", 16⟩,
        ⟨.symbol .star, 18⟩, ⟨.int 2, 20⟩]
    (∀ token ∈ tokens, token.kind ≠ .eof) ∧
      Derives none
        (.ternary (.ternary
          (.apply .methodCall [.atom (.id ⟨"a"⟩) none, .atom (.member "b") none,
            .apply .minus [.atom (.id ⟨"c"⟩) none] none] none)
          (.atom (.id ⟨"d"⟩) none)
          (.apply .product [.atom (.id ⟨"e"⟩) none, .atom (.int 2) none] none) none))
        (kinds tokens) := by
  intro tokens
  have inside : ∀ token ∈ tokens, token.kind ≠ .eof := by decide
  have exactly := ofTokens_exact none tokens ⟨.eof, 21⟩ rfl inside
  exact ⟨inside, (exactly.1 _).mp rfl⟩

end AnalyzerGlue.Expr
