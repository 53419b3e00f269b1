import Mathlib.Data.List.Forall2
import AnalyzerGlue.Proofs.Token.Reading

/-!
# Literals

Between the quotes of a literal stand items: characters for themselves, escapes of one letter,
and escapes of two hexadecimal digits.  The value of a literal has one character for each item.

The tokenizer accepts all of these literals.  It also accepts a plus sign in place of the first
digit of an escape, and nothing else.
-/

namespace AnalyzerGlue.Token

open AnalyzerGlue.Text

/-! ## Hexadecimal digits -/

/-- The hexadecimal digits with their values. -/
def hexDigits : List (Char × Nat) :=
  "0123456789abcdef".toList.zipIdx ++ "ABCDEF".toList.zipIdx 10

/-- A character with a value as a digit is one of ASCII. -/
theorem toNat_lt_of_digitValue? {c : Char} {value : Nat} (isDigit : digitValue? c = some value) :
    c.toNat < 128 := by
  have below : ∀ {d : Char}, c ≤ d → d.toNat < 128 → c.toNat < 128 :=
    fun le small => Nat.lt_of_le_of_lt le small
  unfold digitValue? at isDigit
  split at isDigit
  · rename_i bounds
    exact below bounds.2 (by decide)
  split at isDigit
  · rename_i bounds
    exact below bounds.2 (by decide)
  split at isDigit
  · rename_i bounds
    exact below bounds.2 (by decide)
  · cases isDigit

theorem digitValue?_eq_some_iff {c : Char} {value : Nat} :
    digitValue? c = some value ↔ (c, value) ∈ hexDigits := by
  constructor
  · intro isDigit
    have ascii : ∀ n < 128, ∀ value ∈ digitValue? (Char.ofNat n),
        (Char.ofNat n, value) ∈ hexDigits := by decide
    have listed := ascii c.toNat (toNat_lt_of_digitValue? isDigit) value
    rw [Char.ofNat_toNat] at listed
    exact listed isDigit
  · have listed : ∀ digit ∈ hexDigits, digitValue? digit.1 = some digit.2 := by decide
    exact listed (c, value)

theorem lt_of_mem_hexDigits {c : Char} {value : Nat} (isDigit : (c, value) ∈ hexDigits) :
    value < 16 := by
  have small : ∀ digit ∈ hexDigits, digit.2 < 16 := by decide
  exact small _ isDigit

/-- The plus sign is no digit. -/
theorem plus_not_mem_hexDigits (value : Nat) : ('+', value) ∉ hexDigits := by
  rw [← digitValue?_eq_some_iff]
  simp [digitValue?]

theorem readDigits?_cons_eq_some_iff {value number : Nat} {c : Char} {rest : List Char} :
    readDigits? 16 value (c :: rest) = some number ↔
      ∃ digit, (c, digit) ∈ hexDigits ∧
        readDigits? 16 (value * 16 + digit) rest = some number := by
  simp only [readDigits?, Option.bind_eq_bind, Option.bind_eq_some_iff, digitValue?_eq_some_iff]
  refine exists_congr fun digit => and_congr_right fun isDigit => ?_
  rw [if_pos (lt_of_mem_hexDigits isDigit)]

theorem readNat?_pair_eq_some_iff {first second : Char} {number : Nat} :
    readNat? 16 [first, second] = some number ↔
      ∃ x y, (first, x) ∈ hexDigits ∧ (second, y) ∈ hexDigits ∧ number = 16 * x + y := by
  have isRead : readNat? 16 [first, second] = readDigits? 16 0 [first, second] := rfl
  rw [isRead, readDigits?_cons_eq_some_iff]
  constructor
  · rintro ⟨x, isFirst, behind⟩
    rcases readDigits?_cons_eq_some_iff.mp behind with ⟨y, isSecond, isNumber⟩
    cases isNumber
    exact ⟨x, y, isFirst, isSecond, by omega⟩
  · rintro ⟨x, y, isFirst, isSecond, rfl⟩
    refine ⟨x, isFirst, readDigits?_cons_eq_some_iff.mpr ⟨y, isSecond, ?_⟩⟩
    rw [readDigits?, Nat.zero_mul, Nat.zero_add, Nat.mul_comm]

theorem readNat?_single_eq_some_iff {c : Char} {number : Nat} :
    readNat? 16 [c] = some number ↔ (c, number) ∈ hexDigits := by
  have isRead : readNat? 16 [c] = readDigits? 16 0 [c] := rfl
  rw [isRead, readDigits?_cons_eq_some_iff]
  constructor
  · rintro ⟨digit, isDigit, isNumber⟩
    cases isNumber
    rwa [Nat.zero_mul, Nat.zero_add]
  · intro isDigit
    exact ⟨number, isDigit, by rw [readDigits?, Nat.zero_mul, Nat.zero_add]⟩

/-- A number is read from the digits, or from the digits behind a plus sign. -/
theorem readUnsigned?_eq_some_iff {base limit number : Nat} {first : Char} {rest : List Char} :
    readUnsigned? base limit (first :: rest) = some number ↔
      readNat? base (if first = '+' then rest else first :: rest) = some number ∧
        number ≤ limit := by
  unfold readUnsigned?
  split
  · rename_i same
    cases same
    simp [Option.bind_eq_some_iff, and_comm]
  · rename_i unsigned
    have noSign : first ≠ '+' := fun isSign => unsigned rest (by rw [isSign])
    simp [Option.bind_eq_some_iff, noSign, and_comm]

/-- What the two characters of an escape may be: digits, or a plus sign and a digit. -/
theorem hexEscape?_eq_some_iff {first second c : Char} :
    hexEscape? first second = some c ↔
      (∃ x y, (first, x) ∈ hexDigits ∧ (second, y) ∈ hexDigits ∧ c = Char.ofNat (16 * x + y)) ∨
        first = '+' ∧ ∃ y, (second, y) ∈ hexDigits ∧ c = Char.ofNat y := by
  rw [hexEscape?, Option.map_eq_some_iff]
  simp only [readUnsigned?_eq_some_iff]
  by_cases isSign : first = '+'
  · subst isSign
    simp only [if_true, readNat?_single_eq_some_iff, plus_not_mem_hexDigits, false_and,
      exists_false, false_or, true_and]
    constructor
    · rintro ⟨y, ⟨isDigit, _⟩, rfl⟩
      exact ⟨y, isDigit, rfl⟩
    · rintro ⟨y, isDigit, rfl⟩
      have := lt_of_mem_hexDigits isDigit
      exact ⟨y, ⟨isDigit, by omega⟩, rfl⟩
  · simp only [isSign, if_false, readNat?_pair_eq_some_iff, false_and, or_false]
    constructor
    · rintro ⟨_, ⟨⟨x, y, isFirst, isSecond, rfl⟩, _⟩, rfl⟩
      exact ⟨x, y, isFirst, isSecond, rfl⟩
    · rintro ⟨x, y, isFirst, isSecond, rfl⟩
      have := lt_of_mem_hexDigits isFirst
      have := lt_of_mem_hexDigits isSecond
      exact ⟨_, ⟨⟨x, y, isFirst, isSecond, rfl⟩, by omega⟩, rfl⟩

/-! ## Items -/

/-- The items of a literal and the characters that they stand for. -/
inductive IsItem : List Char → Char → Prop where
  | plain {c : Char} (noQuote : c ≠ '"') (noEscape : c ≠ '\\') : IsItem [c] c
  | lineFeed : IsItem ['\\', 'n'] '\n'
  | carriageReturn : IsItem ['\\', 'r'] '\r'
  | tab : IsItem ['\\', 't'] '\t'
  | backslash : IsItem ['\\', '\\'] '\\'
  | quote : IsItem ['\\', '"'] '"'
  | nul : IsItem ['\\', '0'] '\x00'
  | hex {first second : Char} {x y : Nat} (isFirst : (first, x) ∈ hexDigits)
      (isSecond : (second, y) ∈ hexDigits) :
      IsItem ['\\', 'x', first, second] (Char.ofNat (16 * x + y))

/-- Escapes with a plus sign in place of the first digit. -/
inductive IsSigned : List Char → Char → Prop where
  | mk {digit : Char} {y : Nat} (isDigit : (digit, y) ∈ hexDigits) :
      IsSigned ['\\', 'x', '+', digit] (Char.ofNat y)

/-- What the tokenizer takes for an item. -/
def IsRead (piece : List Char) (c : Char) : Prop :=
  IsItem piece c ∨ IsSigned piece c

theorem isItem_of_simpleEscape? {letter c : Char} (denotes : simpleEscape? letter = some c) :
    IsItem ['\\', letter] c := by
  unfold simpleEscape? at denotes
  split at denotes <;> cases denotes
  · exact .lineFeed
  · exact .carriageReturn
  · exact .tab
  · exact .backslash
  · exact .quote
  · exact .nul

theorem isRead_of_hexEscape? {first second c : Char} (denotes : hexEscape? first second = some c) :
    IsRead ['\\', 'x', first, second] c := by
  rcases hexEscape?_eq_some_iff.mp denotes with ⟨x, y, isFirst, isSecond, rfl⟩ |
    ⟨rfl, y, isSecond, rfl⟩
  · exact .inl (.hex isFirst isSecond)
  · exact .inr (.mk isSecond)

/-- What is taken for an item may stand before a quoted text. -/
theorem IsRead.escaped_append {piece body value : List Char} {c : Char} (read : IsRead piece c)
    (rest : Escaped body value) : Escaped (piece ++ body) (c :: value) := by
  rcases read with item | signed
  · cases item with
    | plain noQuote noEscape => exact .plain noQuote noEscape rest
    | lineFeed | carriageReturn | tab | backslash | quote | nul => exact .simple rfl rest
    | hex isFirst isSecond =>
        exact .hex (hexEscape?_eq_some_iff.mpr (.inl ⟨_, _, isFirst, isSecond, rfl⟩)) rest
  · cases signed with
    | mk isDigit => exact .hex (hexEscape?_eq_some_iff.mpr (.inr ⟨rfl, _, isDigit, rfl⟩)) rest

/-- A quoted text is made of items that stand for the characters of its value. -/
theorem escaped_iff {body value : List Char} :
    Escaped body value ↔ ∃ pieces, body = pieces.flatten ∧ List.Forall₂ IsRead pieces value := by
  constructor
  · intro escaped
    induction escaped with
    | nil => exact ⟨[], rfl, .nil⟩
    | @plain c _ _ noQuote noEscape _ ih =>
        rcases ih with ⟨pieces, rfl, read⟩
        exact ⟨[c] :: pieces, rfl, .cons (.inl (.plain noQuote noEscape)) read⟩
    | @simple letter _ _ _ denotes _ ih =>
        rcases ih with ⟨pieces, rfl, read⟩
        exact ⟨['\\', letter] :: pieces, rfl, .cons (.inl (isItem_of_simpleEscape? denotes)) read⟩
    | @hex first second _ _ _ denotes _ ih =>
        rcases ih with ⟨pieces, rfl, read⟩
        exact ⟨['\\', 'x', first, second] :: pieces, rfl,
          .cons (isRead_of_hexEscape? denotes) read⟩
  · rintro ⟨pieces, rfl, read⟩
    induction read with
    | nil => exact .nil
    | cons isRead _ ih => exact isRead.escaped_append ih

/-! ## Where items end -/

/-- How many characters the first item of a text takes. -/
def itemLength : List Char → Nat
  | '\\' :: 'x' :: _ => 4
  | '\\' :: _ => 2
  | _ => 1

theorem IsRead.itemLength_append {piece : List Char} {c : Char} (read : IsRead piece c)
    (rest : List Char) : itemLength (piece ++ rest) = piece.length := by
  rcases read with item | signed
  · cases item with
    | plain noQuote noEscape =>
        unfold itemLength
        split <;> simp_all
    | _ => rfl
  · cases signed
    rfl

theorem IsRead.ne_nil {piece : List Char} {c : Char} (read : IsRead piece c) : piece ≠ [] := by
  rcases read with item | signed
  · cases item <;> simp
  · cases signed
    simp

/-- A text can be cut into items in one way only. -/
theorem eq_of_flatten_eq {pieces others : List (List Char)} {values values' : List Char}
    (read : List.Forall₂ IsRead pieces values) (read' : List.Forall₂ IsRead others values')
    (same : pieces.flatten = others.flatten) : pieces = others := by
  induction read generalizing others values' with
  | nil =>
      cases read' with
      | nil => rfl
      | cons isRead _ =>
          have isNil := List.append_eq_nil_iff.mp same.symm
          exact absurd isNil.1 isRead.ne_nil
  | cons isRead _ ih =>
      cases read' with
      | nil =>
          have isNil := List.append_eq_nil_iff.mp same
          exact absurd isNil.1 isRead.ne_nil
      | cons isRead' behind =>
          rw [List.flatten_cons, List.flatten_cons] at same
          have sameLength := congrArg itemLength same
          rw [isRead.itemLength_append, isRead'.itemLength_append] at sameLength
          rcases List.append_inj same sameLength with ⟨rfl, sameRest⟩
          rw [ih behind sameRest]

theorem IsSigned.not_isItem {piece : List Char} {c d : Char} (signed : IsSigned piece c) :
    ¬ IsItem piece d := by
  intro item
  cases signed
  cases item with
  | hex isFirst => exact plus_not_mem_hexDigits _ isFirst

theorem forall₂_isItem_iff {pieces : List (List Char)} {values : List Char}
    (read : List.Forall₂ IsRead pieces values) :
    List.Forall₂ IsItem pieces values ↔ ∀ piece ∈ pieces, ∀ c, ¬ IsSigned piece c := by
  induction read with
  | nil => simp
  | cons isRead _ ih =>
      rw [List.forall₂_cons, List.forall_mem_cons, ih]
      refine and_congr_left fun _ => ⟨fun item c signed => signed.not_isItem item, ?_⟩
      intro unsigned
      exact isRead.resolve_right (unsigned _)

/-- A quoted text is made of items exactly if none of its escapes has a plus sign. -/
theorem exists_items_iff {pieces : List (List Char)} {values : List Char}
    (read : List.Forall₂ IsRead pieces values) :
    (∃ items, items.flatten = pieces.flatten ∧ List.Forall₂ IsItem items values) ↔
      ∀ piece ∈ pieces, ∀ c, ¬ IsSigned piece c := by
  rw [← forall₂_isItem_iff read]
  constructor
  · rintro ⟨items, same, areItems⟩
    have areRead : List.Forall₂ IsRead items values := areItems.imp fun _ _ => .inl
    rwa [← eq_of_flatten_eq areRead read same]
  · intro areItems
    exact ⟨pieces, rfl, areItems⟩

/-! ## Reading literals -/

/-- The next token of a text, behind the white space there may be, and what follows it. -/
def next (text : List Char) : Except LexError (Lexeme × List Char) :=
  match text.dropWhile isSpace with
  | [] => .ok (.eof, [])
  | c :: rest => lexeme c rest

/-- A text is scanned by taking the next token up to the end or the first error. -/
theorem scan_eq_next (total : Nat) (text : List Char) :
    scan total text = match next text with
      | .error error => ([], some error)
      | .ok (kind, left) =>
          let token : Token := ⟨kind, total + 1 - (text.dropWhile isSpace).length⟩
          if kind = .eof then ([token], none)
          else (token :: (scan total left).1, (scan total left).2) := by
  rw [scan_eq, next]
  cases text.dropWhile isSpace with
  | nil => rfl
  | cons c rest =>
      cases read : lexeme c rest with
      | error error => simp only [read]
      | ok found =>
          rcases found with ⟨kind, left⟩
          rcases spelled_of_lexeme_eq_ok read with ⟨_, _, spelled⟩
          simp only [read, if_neg spelled.ne_eof, List.length_cons, Nat.add_sub_add_right]

/-- White space, a mark, items between quotes that stand for the characters of a value, and
what is left behind the closing quote. -/
def StartsWithLiteral (denotes : List Char → Char → Prop) (mark text : List Char)
    (value : String) (left : List Char) : Prop :=
  ∃ blanks pieces, text = blanks ++ (mark ++ '"' :: (pieces.flatten ++ '"' :: left)) ∧
    blanks.all isSpace = true ∧ List.Forall₂ denotes pieces value.toList

/-- A string or a byte string is spelled by a quoted text, for the latter with a mark. -/
theorem Spelled.exists_escaped {spelling : List Char} {kind : Lexeme}
    (spelled : Spelled spelling kind) {value : String} :
    (kind = .string value → ∃ body, spelling = '"' :: (body ++ ['"']) ∧
      Escaped body value.toList) ∧
    (kind = .bytes value → ∃ body, spelling = 'b' :: '"' :: (body ++ ['"']) ∧
      Escaped body value.toList) := by
  cases spelled with
  | @word c rest _ _ =>
      rcases ofWord_cases (c :: rest) with ⟨value, equation⟩ | equation | equation | equation <;>
        rw [equation] <;> simp
  | @string body value escaped =>
      refine ⟨?_, by simp⟩
      rintro ⟨rfl⟩
      exact ⟨body, rfl, by rwa [String.toList_ofList]⟩
  | @bytes body value escaped =>
      refine ⟨by simp, ?_⟩
      rintro ⟨rfl⟩
      exact ⟨body, rfl, by rwa [String.toList_ofList]⟩
  | _ => simp

/-- A quoted text is read as a literal, whatever follows it. -/
theorem lexeme_of_escaped {body value : List Char} (escaped : Escaped body value)
    (left : List Char) :
    lexeme '"' (body ++ '"' :: left) = .ok (.string (String.ofList value), left) ∧
      lexeme 'b' ('"' :: (body ++ '"' :: left)) = .ok (.bytes (String.ofList value), left) := by
  have noWord : startsWord '"' = false := by decide
  constructor <;> simp [lexeme, noWord, quoted_eq_ok_of_escaped escaped, Except.map]

theorem next_append {blanks : List Char} (allBlank : blanks.all isSpace = true) {c : Char}
    (visible : isSpace c = false) (rest : List Char) :
    next (blanks ++ c :: rest) = lexeme c rest := by
  have skipped : (blanks ++ c :: rest).dropWhile isSpace = c :: rest := by
    rw [List.dropWhile_append_of_pos (List.all_eq_true.mp allBlank),
      List.dropWhile_cons_of_neg (by simp [visible])]
  rw [next, skipped]

/-- A token that is not the end is spelled behind white space. -/
theorem exists_spelled_of_next {text left : List Char} {kind : Lexeme}
    (read : next text = .ok (kind, left)) (notEnd : kind ≠ .eof) :
    ∃ blanks spelling, text = blanks ++ (spelling ++ left) ∧ blanks.all isSpace = true ∧
      Spelled spelling kind := by
  unfold next at read
  split at read
  · cases read
    exact absurd rfl notEnd
  · rename_i c rest start
    rcases spelled_of_lexeme_eq_ok read with ⟨spelling, isStart, spelled⟩
    refine ⟨text.takeWhile isSpace, spelling, ?_, List.all_takeWhile, spelled⟩
    rw [← isStart, ← start, List.takeWhile_append_dropWhile]

/-- The next token is a literal exactly if the text starts with one, where a plus sign may stand
in place of the first digit of an escape.  What is read is made of proper items exactly if
there is no such plus sign. -/
theorem next_eq_literal_iff (text left : List Char) (value : String) :
    (next text = .ok (.string value, left) ↔ StartsWithLiteral IsRead [] text value left) ∧
      (next text = .ok (.bytes value, left) ↔ StartsWithLiteral IsRead ['b'] text value left) ∧
      ∀ pieces values, List.Forall₂ IsRead pieces values →
        ((∃ items, items.flatten = pieces.flatten ∧ List.Forall₂ IsItem items values) ↔
          ∀ piece ∈ pieces, ∀ c, ¬ IsSigned piece c) := by
  refine ⟨⟨?_, ?_⟩, ⟨?_, ?_⟩, fun pieces values read => exists_items_iff read⟩
  · intro read
    rcases exists_spelled_of_next read (by simp) with ⟨blanks, spelling, rfl, allBlank, spelled⟩
    rcases spelled.exists_escaped.1 rfl with ⟨body, rfl, escaped⟩
    rcases escaped_iff.mp escaped with ⟨pieces, rfl, areRead⟩
    exact ⟨blanks, pieces, by simp, allBlank, areRead⟩
  · rintro ⟨blanks, pieces, rfl, allBlank, areRead⟩
    have escaped := escaped_iff.mpr ⟨pieces, rfl, areRead⟩
    rw [List.nil_append, next_append allBlank (by decide), (lexeme_of_escaped escaped left).1,
      String.ofList_toList]
  · intro read
    rcases exists_spelled_of_next read (by simp) with ⟨blanks, spelling, rfl, allBlank, spelled⟩
    rcases spelled.exists_escaped.2 rfl with ⟨body, rfl, escaped⟩
    rcases escaped_iff.mp escaped with ⟨pieces, rfl, areRead⟩
    exact ⟨blanks, pieces, by simp, allBlank, areRead⟩
  · rintro ⟨blanks, pieces, rfl, allBlank, areRead⟩
    have escaped := escaped_iff.mpr ⟨pieces, rfl, areRead⟩
    rw [List.singleton_append, next_append allBlank (by decide), (lexeme_of_escaped escaped left).2,
      String.ofList_toList]

/-- A byte string with both sorts of escapes, between other text. -/
theorem next_eq_literal_iff_escapes :
    let text := " b\"\\x4f\\n\" x".toList
    let pieces := [['\\', 'x', '4', 'f'], ['\\', 'n']]
    next text = .ok (.bytes "O\n", [' ', 'x']) ∧
      StartsWithLiteral IsRead ['b'] text "O\n" [' ', 'x'] ∧
      List.Forall₂ IsRead pieces ['O', '\n'] ∧ ∀ piece ∈ pieces, ∀ c, ¬ IsSigned piece c := by
  intro text pieces
  have read : next text = .ok (.bytes "O\n", [' ', 'x']) := by rfl
  have isHex : IsItem ['\\', 'x', '4', 'f'] 'O' :=
    @IsItem.hex '4' 'f' 4 15 (by decide) (by decide)
  have areItems : List.Forall₂ IsItem pieces ['O', '\n'] := .cons isHex (.cons .lineFeed .nil)
  have areRead : List.Forall₂ IsRead pieces ['O', '\n'] := areItems.imp fun _ _ => .inl
  rcases next_eq_literal_iff text [' ', 'x'] "O\n" with ⟨_, isBytes, areItems_iff⟩
  exact ⟨read, isBytes.mp read, areRead,
    (areItems_iff pieces _ areRead).mp ⟨pieces, rfl, areItems⟩⟩

/-- The text `"\x+f"` is read as a string, though no items are between its quotes. -/
theorem next_accepts_sign :
    let text := "\"\\x+f\"".toList
    next text = .ok (.string "\x0f", []) ∧
      ∀ value left, ¬ StartsWithLiteral IsItem [] text value left := by
  intro text
  refine ⟨by rfl, ?_⟩
  rintro value left ⟨blanks, items, isText, allBlank, areItems⟩
  generalize value.toList = values at areItems
  cases blanks with
  | cons c blanks =>
      rcases (List.cons.inj isText).1 with rfl
      simp only [List.all_cons, Bool.and_eq_true] at allBlank
      exact absurd allBlank.1 (by decide)
  | nil =>
      have inside : ['\\', 'x', '+', 'f', '"'] = items.flatten ++ '"' :: left :=
        (List.cons.inj isText).2
      cases areItems with
      | nil => cases inside
      | cons isItem _ =>
          cases isItem with
          | plain _ noEscape => exact noEscape (List.cons.inj inside).1.symm
          | hex isFirst _ =>
              simp only [List.flatten_cons, List.cons_append, List.cons.injEq, true_and] at inside
              exact plus_not_mem_hexDigits _ (inside.1 ▸ isFirst)
          | _ => simp at inside

end AnalyzerGlue.Token
