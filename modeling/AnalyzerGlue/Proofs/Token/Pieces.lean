import Mathlib.Data.List.Chain
import Mathlib.Data.List.TakeWhile
import AnalyzerGlue.Proofs.Token.Reading

/-!
# Tokens as pieces of a text

The tokens of a text cut it into pieces.  A piece starts at the column of its token and goes up
to the column of the next one: it is a spelling of the token and the white space behind it.  No
token depends on what is around its piece, since white space ends every spelling.
-/

namespace AnalyzerGlue

open AnalyzerGlue.Text

namespace Token

/-! ## White space behind a token -/

theorem continuesWord_eq_false_of_isSpace {c : Char} (blank : isSpace c = true) :
    continuesWord c = false := by
  rw [Bool.eq_false_iff]
  intro continues
  simp [isSpace_eq_false_of_continuesWord continues] at blank

theorem separates_of_all_isSpace {blanks : List Char} (allBlank : blanks.all isSpace = true) :
    Separates blanks := by
  cases blanks with
  | nil => exact separates_nil
  | cons c rest =>
      simp only [List.all_cons, Bool.and_eq_true] at allBlank
      refine separates_cons ⟨continuesWord_eq_false_of_isSpace allBlank.1, ?_, ?_⟩ rest <;>
        (rintro rfl; exact absurd allBlank.1 (by decide))

/-- The second character of a sign is no white space. -/
theorem ofPair?_eq_none_of_isSpace (c : Char) {d : Char} (blank : isSpace d = true) :
    Symbol.ofPair? c d = none := by
  unfold Symbol.ofPair?
  split
  case h_12 => rfl
  all_goals exact absurd blank (by decide)

/-- A sign is spelled in one way. -/
theorem Spelled.eq_toList_of_symbol {spelling : List Char} {sign : Symbol}
    (spelled : Spelled spelling (.symbol sign)) : spelling = sign.text.toList := by
  generalize same : Lexeme.symbol sign = kind at spelled
  cases spelled with
  | @word c rest _ _ =>
      rcases ofWord_cases (c :: rest) with ⟨value, equation⟩ | equation | equation | equation <;>
        rw [equation] at same <;> cases same
  | symbol =>
      cases same
      rfl
  | _ => cases same

/-- A spelling with white space behind it, or with nothing behind it, is read as its token. -/
theorem lexeme_append_blanks {spelling blanks : List Char} {kind : Lexeme}
    (spelled : Spelled spelling kind) (allBlank : blanks.all isSpace = true) :
    ∃ c tail, spelling = c :: tail ∧ isSpace c = false ∧
      lexeme c (tail ++ blanks) = .ok (kind, blanks) := by
  by_cases isSign : ∃ sign, kind = .symbol sign
  · rcases isSign with ⟨sign, rfl⟩
    rw [spelled.eq_toList_of_symbol]
    rcases sign.text_cases with ⟨c, isText, single⟩ | ⟨c, d, isText, pair⟩
    · have noPair : ∀ d ∈ blanks.head?, Symbol.ofPair? c d = none := fun d first =>
        ofPair?_eq_none_of_isSpace c (List.all_eq_true.mp allBlank d (List.mem_of_head? first))
      rcases lexeme_of_ofChar? single blanks with ⟨visible, read⟩
      rw [Symbol.read_eq_some_of_ofChar? single noPair] at read
      exact ⟨c, [], isText, visible, read⟩
    · rcases Symbol.exists_ofChar?_of_ofPair? pair with ⟨begun, single⟩
      rcases lexeme_of_ofChar? single (d :: blanks) with ⟨visible, read⟩
      rw [Symbol.read_eq_some_of_ofPair? pair] at read
      exact ⟨c, [d], isText, visible, read⟩
  · exact lexeme_eq_ok_of_spelled spelled (fun sign same => isSign ⟨sign, same⟩)
      (separates_of_all_isSpace allBlank)

/-! ## Pieces -/

/-- A spelling of a token with the white space behind it. -/
def IsPiece (piece : List Char) (kind : Lexeme) : Prop :=
  ∃ spelling blanks, piece = spelling ++ blanks ∧ Spelled spelling kind ∧
    blanks.all isSpace = true

theorem scan_of_all_isSpace (total : Nat) {blanks : List Char}
    (allBlank : blanks.all isSpace = true) : scan total blanks = ([⟨.eof, total + 1⟩], none) := by
  have nothingLeft : blanks.dropWhile isSpace = [] :=
    List.dropWhile_eq_nil_iff.mpr (List.all_eq_true.mp allBlank)
  rw [scan_eq, nothingLeft]

/-- Read on its own, a piece has its token and no other. -/
theorem tokenize_of_isPiece {piece : List Char} {kind : Lexeme} (isPiece : IsPiece piece kind) :
    tokenize piece = .ok [⟨kind, 1⟩, ⟨.eof, piece.length + 1⟩] := by
  rcases isPiece with ⟨spelling, blanks, rfl, spelled, allBlank⟩
  rcases lexeme_append_blanks spelled allBlank with ⟨c, tail, rfl, visible, read⟩
  have scanned : scan (c :: tail ++ blanks).length (c :: tail ++ blanks) =
      ([⟨kind, 1⟩, ⟨.eof, (c :: tail ++ blanks).length + 1⟩], none) := by
    rw [scan_eq, List.cons_append, List.dropWhile_cons_of_neg (by simp [visible])]
    simp only [read, scan_of_all_isSpace _ allBlank, List.length_cons, Nat.add_sub_cancel_left]
  rw [tokenize, scanned]

theorem IsPiece.length_pos {piece : List Char} {kind : Lexeme} (isPiece : IsPiece piece kind) :
    0 < piece.length := by
  rcases isPiece with ⟨spelling, blanks, rfl, spelled, allBlank⟩
  rcases lexeme_append_blanks spelled allBlank with ⟨c, tail, rfl, _⟩
  simp

/-- The tokens of pieces that follow each other from a column on, with the end behind them. -/
def laidOut : Nat → List (List Char × Lexeme) → List Token
  | start, [] => [⟨.eof, start⟩]
  | start, (piece, kind) :: others => ⟨kind, start⟩ :: laidOut (start + piece.length) others

/-- The text of some pieces. -/
def joined (pieces : List (List Char × Lexeme)) : List Char :=
  (pieces.map Prod.fst).flatten

theorem joined_cons (piece : List Char) (kind : Lexeme) (pieces : List (List Char × Lexeme)) :
    joined ((piece, kind) :: pieces) = piece ++ joined pieces := by
  rw [joined, List.map_cons, List.flatten_cons, joined]

/-- A text that is scanned to its end is white space and pieces, and the tokens are laid out as
the pieces are. -/
theorem exists_pieces_of_scan_eq {total : Nat} {text : List Char} {tokens : List Token}
    (bounded : text.length ≤ total) (scanned : scan total text = (tokens, none)) :
    ∃ blanks pieces, text = blanks ++ joined pieces ∧ blanks.all isSpace = true ∧
      (∀ piece ∈ pieces, IsPiece piece.1 piece.2) ∧
      tokens = laidOut (total - text.length + blanks.length + 1) pieces := by
  fun_induction scan total text generalizing tokens with
  | case1 text blank =>
      cases scanned
      refine ⟨text, [], by simp [joined], ?_, by simp, ?_⟩
      · exact List.all_eq_true.mpr (List.dropWhile_eq_nil_iff.mp blank)
      · rw [laidOut, Nat.sub_add_cancel bounded]
  | case2 => cases scanned
  | case3 text c rest start kind left read _ others stop behind ih =>
      cases scanned
      rcases spelled_of_lexeme_eq_ok read with ⟨spelling, isStart, spelled⟩
      have isText : text = text.takeWhile isSpace ++ (c :: rest) := by
        rw [← start, List.takeWhile_append_dropWhile]
      have textLength := congrArg List.length isText
      have startLength := congrArg List.length isStart
      simp only [List.length_append, List.length_cons] at textLength startLength
      rcases ih (by omega) behind with ⟨blanks, pieces, isLeft, allBlank, arePieces, rfl⟩
      refine ⟨text.takeWhile isSpace, (spelling ++ blanks, kind) :: pieces, ?_,
        List.all_takeWhile, ?_, ?_⟩
      · calc
          text = text.takeWhile isSpace ++ (spelling ++ left) := by rw [← isStart]; exact isText
          _ = text.takeWhile isSpace ++ joined ((spelling ++ blanks, kind) :: pieces) := by
            rw [isLeft, joined_cons, List.append_assoc]
      · exact List.forall_mem_cons.mpr ⟨⟨spelling, blanks, rfl, spelled, allBlank⟩, arePieces⟩
      · have isColumn : total - rest.length =
            total - text.length + (text.takeWhile isSpace).length + 1 := by omega
        have isNext : total - left.length + blanks.length + 1 =
            total - rest.length + (spelling ++ blanks).length := by
          rw [List.length_append]
          omega
        rw [laidOut, ← isColumn, isNext]

theorem exists_laidOut_eq_cons (start : Nat) (pieces : List (List Char × Lexeme)) :
    ∃ kind others, laidOut start pieces = ⟨kind, start⟩ :: others := by
  cases pieces with
  | nil => exact ⟨.eof, [], rfl⟩
  | cons piece pieces => exact ⟨piece.2, _, rfl⟩

/-- The characters of a text from one column up to another. -/
def slice (text : List Char) (first last : Nat) : List Char :=
  (text.drop (first - 1)).take (last - first)

/-- The columns of the tokens cut the text into its pieces. -/
theorem isChain_laidOut {text before : List Char} {pieces : List (List Char × Lexeme)}
    (arePieces : ∀ piece ∈ pieces, IsPiece piece.1 piece.2)
    (isText : text = before ++ joined pieces) :
    (laidOut (before.length + 1) pieces).IsChain fun token next =>
      IsPiece (slice text token.column next.column) token.kind ∧
        next.column = token.column + (slice text token.column next.column).length := by
  induction pieces generalizing before with
  | nil => exact .singleton _
  | cons first others ih =>
      rcases first with ⟨piece, kind⟩
      rw [List.forall_mem_cons] at arePieces
      rcases arePieces with ⟨isPiece, arePieces⟩
      rw [joined_cons, ← List.append_assoc] at isText
      have behind := ih arePieces isText
      rw [List.length_append, Nat.add_right_comm] at behind
      rcases exists_laidOut_eq_cons (before.length + 1 + piece.length) others with
        ⟨nextKind, more, isLaidOut⟩
      rw [laidOut]
      rw [isLaidOut] at behind ⊢
      have isSlice : slice text (before.length + 1) (before.length + 1 + piece.length) = piece := by
        rw [slice, isText, List.append_assoc, Nat.add_sub_cancel, List.drop_left,
          Nat.add_sub_cancel_left, List.take_left]
      refine List.isChain_cons_cons.mpr ⟨?_, behind⟩
      rw [isSlice]
      exact ⟨isPiece, rfl⟩

/-- The tokens of a text are the pieces of it.  Their columns increase, the first one is behind
white space only, and the last one marks the end.  What is between the columns of a token and
of the next one has that token and no other when it is read on its own. -/
theorem tokenize_pieces (text : List Char) (tokens : List Token)
    (read : tokenize text = .ok tokens) :
    tokens.Pairwise (fun token later => token.column < later.column) ∧
      (∀ first ∈ tokens.head?, 0 < first.column ∧
        (text.take (first.column - 1)).all isSpace = true) ∧
      (∃ front, tokens = front ++ [⟨.eof, text.length + 1⟩] ∧
        ∀ token ∈ front, token.kind ≠ .eof) ∧
      tokens.IsChain fun token next =>
        tokenize (slice text token.column next.column) =
          .ok [⟨token.kind, 1⟩, ⟨.eof, next.column - token.column + 1⟩] := by
  have scanned : scan text.length text = (tokens, none) := by
    unfold tokenize at read
    split at read
    · rename_i scanned
      cases read
      exact scanned
    · cases read
  rcases exists_pieces_of_scan_eq (Nat.le_refl _) scanned with
    ⟨blanks, pieces, isText, allBlank, arePieces, isLaidOut⟩
  rw [Nat.sub_self, Nat.zero_add] at isLaidOut
  have chain := isChain_laidOut arePieces isText
  rw [← isLaidOut] at chain
  refine ⟨?_, ?_, ?_, ?_⟩
  · have ascending : (tokens.map Token.column).IsChain (· < ·) := by
      refine (List.isChain_map _).mpr (chain.imp ?_)
      rintro token next ⟨isPiece, isNext⟩
      have := isPiece.length_pos
      omega
    exact List.pairwise_map.mp (List.isChain_iff_pairwise.mp ascending)
  · rcases exists_laidOut_eq_cons (blanks.length + 1) pieces with ⟨kind, others, isCons⟩
    rw [isLaidOut, isCons]
    rintro first ⟨rfl⟩
    refine ⟨Nat.succ_pos _, ?_⟩
    rwa [Nat.add_sub_cancel, isText, List.take_left]
  · rcases spells_of_tokenize_eq_ok read with ⟨front, isFront, spells⟩
    refine ⟨front, isFront, fun token member => ?_⟩
    rcases spells.spelled_of_mem _ (List.mem_map_of_mem member) with ⟨spelling, spelled⟩
    exact spelled.ne_eof
  · refine chain.imp ?_
    rintro token next ⟨isPiece, isNext⟩
    have isLength : (slice text token.column next.column).length = next.column - token.column := by
      omega
    rw [tokenize_of_isPiece isPiece, isLength]

/-- A text with white space before and between its tokens.  The letter before the quote, the
dot behind the digit and the question mark behind the dot each belong to the token that is
longest. -/
theorem tokenize_pieces_mixed :
    let text := "  b\"\\x41\" b 1.5.?x<<=".toList
    let tokens : List Token :=
      [⟨.bytes "A", 3⟩, ⟨.word "b", 11⟩, ⟨.real "1.5", 13⟩, ⟨.symbol .dotQuestion, 16⟩,
        ⟨.word "x", 18⟩, ⟨.symbol .shiftLeft, 19⟩, ⟨.symbol .assign, 21⟩, ⟨.eof, 22⟩]
    tokenize text = .ok tokens ∧ slice text 11 13 = ['b', ' '] ∧
      tokens.IsChain fun token next =>
        tokenize (slice text token.column next.column) =
          .ok [⟨token.kind, 1⟩, ⟨.eof, next.column - token.column + 1⟩] := by
  intro text tokens
  have read : tokenize text = .ok tokens := by
    simp only [text, tokens]
    decide +kernel
  exact ⟨read, by decide, (tokenize_pieces text tokens read).2.2.2⟩

end Token

end AnalyzerGlue
