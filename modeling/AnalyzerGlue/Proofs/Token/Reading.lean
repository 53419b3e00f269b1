import AnalyzerGlue.Proofs.Text.Characters
import AnalyzerGlue.Proofs.Token.Spelling

/-!
# Reading what is written

A spelling is read as its token if what follows cannot be taken for a part of
it, which `Separates` says for words, numbers and strings alike.  `Spells` is
the relation between whole texts and their tokens; the tokenizer succeeds
exactly on the texts of this relation.
-/

namespace AnalyzerGlue.Token

open AnalyzerGlue.Text

/-! ## Ends of tokens -/

/-- Texts that continue neither a word nor a number, and make no byte string out
of a word before them. -/
structure Separates (rest : List Char) : Prop where
  noWord : ∀ c ∈ rest.head?, continuesWord c = false
  noQuote : rest.head? ≠ some '"'
  noFraction : ∀ d, ['.', d] <+: rest → d.isDigit = false

theorem separates_nil : Separates [] := by
  refine ⟨by simp, by simp, ?_⟩
  rintro d ⟨_, absurd⟩
  cases absurd

/-- It is decided by the first character, unless that is a dot. -/
theorem separates_cons {c : Char} (ends : continuesWord c = false ∧ c ≠ '"' ∧ c ≠ '.')
    (rest : List Char) : Separates (c :: rest) := by
  rcases ends with ⟨noWord, noQuote, noDot⟩
  refine ⟨by simpa using noWord, by simpa using noQuote, ?_⟩
  rintro d ⟨behind, isDot⟩
  cases isDot
  exact absurd rfl noDot

/-- After a dot a digit must not follow. -/
theorem separates_dot {d : Char} (noDigit : d.isDigit = false) (rest : List Char) :
    Separates ('.' :: d :: rest) := by
  refine ⟨by simp; decide, by simp, ?_⟩
  rintro d ⟨behind, same⟩
  cases same
  exact noDigit

namespace Separates

variable {rest : List Char}

theorem noAlphanum (separates : Separates rest) : ∀ c ∈ rest.head?, c.isAlphanum = false := by
  intro c first
  rw [Bool.eq_false_iff]
  intro ascii
  exact absurd (continuesWord_of_isAlphanum ascii) (by simp [separates.noWord c first])

theorem noDigit (separates : Separates rest) : ∀ c ∈ rest.head?, c.isDigit = false := by
  intro c first
  rw [Bool.eq_false_iff]
  intro digit
  exact absurd (continuesWord_of_isDigit digit) (by simp [separates.noWord c first])

theorem head?_any_startsWord (separates : Separates rest) :
    rest.head?.any startsWord = false := by
  rw [Option.any_eq_false]
  intro c first
  rw [Bool.eq_false_iff]
  intro starts
  exact absurd (continuesWord_of_startsWord starts) (by simp [separates.noWord c first])

end Separates

/-- A run of characters of a class ends where the class does. -/
theorem span_append {p : Char → Bool} {text rest : List Char} (inside : text.all p = true)
    (stops : ∀ c ∈ rest.head?, p c = false) :
    (text ++ rest).takeWhile p = text ∧ (text ++ rest).dropWhile p = rest := by
  have member := List.all_eq_true.mp inside
  rw [List.takeWhile_append_of_pos member, List.dropWhile_append_of_pos member]
  cases rest with
  | nil => simp
  | cons c rest => simp [stops c rfl]

/-! ## One token -/

/-- A text of digits has a value in base ten. -/
theorem readDigits?_of_all_isDigit {digits : List Char} (allDigits : digits.all Char.isDigit = true)
    (value : Nat) : readDigits? 10 value digits = some (Nat.ofDigitChars 10 digits value) := by
  induction digits generalizing value with
  | nil => rfl
  | cons c rest ih =>
      simp only [List.all_cons, Bool.and_eq_true] at allDigits
      have bounds := isDigit_iff_toNat.mp allDigits.1
      have isDecimal : digitValue? c = some (c.toNat - '0'.toNat) := by
        rw [digitValue?, if_pos]
        exact bounds
      have small : c.toNat - '0'.toNat < 10 := by
        have zero : '0'.toNat = 48 := rfl
        omega
      rw [readDigits?, isDecimal, Nat.ofDigitChars_cons, Nat.mul_comm 10]
      simp only [Option.bind_eq_bind, Option.bind_some, if_pos small, ih allDigits.2]

/-- The decimal digits of a number spell it. -/
theorem spelled_toDigits {value : Nat} (bounded : value ≤ maxWord) :
    Spelled (Nat.toDigits 10 value) (.int value) := by
  have notNil : Nat.toDigits 10 value ≠ [] := Nat.toDigits_ne_nil
  have allDigits : (Nat.toDigits 10 value).all Char.isDigit = true :=
    List.all_eq_true.mpr fun c => Nat.isDigit_of_mem_toDigits (by decide) (by decide)
  refine .decimal ⟨notNil, allDigits⟩ ?_ bounded
  rw [readNat?, if_neg (by simp), readDigits?_of_all_isDigit allDigits,
    Nat.ofDigitChars_toDigits (by decide) (by decide)]

theorem lexeme_of_startsWord {c : Char} {name rest : List Char} (starts : startsWord c = true)
    (continues : name.all continuesWord = true) (separates : Separates rest) :
    lexeme c (name ++ rest) = .ok (ofWord (c :: name), rest) := by
  have noBytes : ¬ (c = 'b' ∧ (name ++ rest).head? = some '"') := by
    rintro ⟨_, quote⟩
    cases name with
    | nil => exact separates.noQuote quote
    | cons d name =>
        cases quote
        simp only [List.all_cons, Bool.and_eq_true] at continues
        exact absurd continues.1 (by decide)
  rcases span_append continues separates.noWord with ⟨taken, left⟩
  rw [lexeme, if_neg noBytes, if_pos starts, taken, left]

theorem lexeme_of_isDigit {c : Char} (digit : c.isDigit = true) (rest : List Char) :
    lexeme c rest = number c rest := by
  have noLetter : c ≠ 'b' := by
    rintro rfl
    cases digit
  have noDollar : c ≠ '$' := by
    rintro rfl
    cases digit
  rw [lexeme, if_neg (fun isBytes => noLetter isBytes.1),
    if_neg (by simp [startsWord_eq_false_of_isDigit digit]), if_neg noDollar, if_pos digit]

/-- Digits without a fraction are an integer. -/
theorem integer_of_isNumeral {digits rest : List Char} {value : Nat}
    (denotes : readNat? 10 digits = some value) (bounded : value ≤ maxWord)
    (separates : Separates rest) : decimalTail digits rest = .ok (.int value, rest) := by
  have integer : decimalTail.integer digits rest = .ok (.int value, rest) := by
    simp [decimalTail.integer, separates.head?_any_startsWord, denotes, bounded]
  unfold decimalTail
  split
  · rename_i d behind
    rw [if_neg (by simp [separates.noFraction d ⟨behind, rfl⟩]), integer]
  · exact integer

/-- Digits behind a dot belong to the number. -/
theorem real_of_isNumeral {digits fraction rest : List Char} (isFraction : IsNumeral fraction)
    (separates : Separates rest) :
    decimalTail digits ('.' :: (fraction ++ rest)) =
      .ok (.real (String.ofList (digits ++ '.' :: fraction)), rest) := by
  rcases isFraction with ⟨notNil, allDigits⟩
  rcases List.exists_cons_of_ne_nil notNil with ⟨d, others, rfl⟩
  rcases span_append allDigits separates.noDigit with ⟨taken, left⟩
  have isDigit : d.isDigit = true := by
    simp only [List.all_cons, Bool.and_eq_true] at allDigits
    exact allDigits.1
  rw [List.cons_append] at taken left ⊢
  simp only [decimalTail, isDigit, if_true, taken, left]

/-- A number that is not marked as hexadecimal is decimal. -/
theorem number_eq_decimal (c : Char) {rest : List Char}
    (unmarked : ∀ x ∈ rest.head?, x ≠ 'x' ∧ x ≠ 'X') : number c rest = decimal (c :: rest) := by
  cases rest with
  | nil => rfl
  | cons x rest =>
      rcases unmarked x rfl with ⟨noLower, noUpper⟩
      rw [number, if_neg (by simp [noLower, noUpper])]

/-- A decimal number is read by its digits. -/
theorem lexeme_of_isNumeral {c : Char} {digits rest : List Char}
    (isNumeral : IsNumeral (c :: digits)) (stops : ∀ d ∈ rest.head?, d.isDigit = false)
    (unmarked : ∀ x ∈ rest.head?, x ≠ 'x' ∧ x ≠ 'X') :
    lexeme c (digits ++ rest) = decimalTail (c :: digits) rest := by
  have allDigits := isNumeral.2
  rcases span_append allDigits stops with ⟨taken, left⟩
  simp only [List.all_cons, Bool.and_eq_true] at allDigits
  have unmarkedDigits : ∀ x ∈ (digits ++ rest).head?, x ≠ 'x' ∧ x ≠ 'X' := by
    cases digits with
    | nil => exact unmarked
    | cons d digits =>
        rintro x ⟨rfl⟩
        simp only [List.all_cons, Bool.and_eq_true] at allDigits
        constructor <;> (rintro rfl; cases allDigits.2.1)
  rw [lexeme_of_isDigit allDigits.1, number_eq_decimal c unmarkedDigits, decimal,
    ← List.cons_append, taken, left]

theorem dollarWord_of_all_continuesWord {name rest : List Char} (notNil : name ≠ [])
    (continues : name.all continuesWord = true) (separates : Separates rest) :
    dollarWord (name ++ rest) = .ok (.word (String.ofList ('$' :: name)), rest) := by
  rcases span_append continues separates.noWord with ⟨taken, left⟩
  unfold dollarWord
  split
  · rename_i behind start
    rcases List.exists_cons_of_ne_nil notNil with ⟨c, others, rfl⟩
    cases start
    simp only [List.all_cons, Bool.and_eq_true] at continues
    exact absurd continues.1 (by decide)
  · rw [taken, left]
    split
    · exact absurd rfl notNil
    · rfl

theorem isSpace_eq_false_of_isNumeral {c : Char} {digits : List Char}
    (isNumeral : IsNumeral (c :: digits)) : isSpace c = false := by
  have allDigits := isNumeral.2
  simp only [List.all_cons, Bool.and_eq_true] at allDigits
  exact isSpace_eq_false_of_continuesWord (continuesWord_of_isDigit allDigits.1)

theorem Separates.unmarked {rest : List Char} (separates : Separates rest) :
    ∀ x ∈ rest.head?, x ≠ 'x' ∧ x ≠ 'X' := by
  intro x first
  have noWord := separates.noWord x first
  constructor <;> (rintro rfl; cases noWord)

/-- A spelling that is no sign starts with a visible character and is read up to
a separating text. -/
theorem lexeme_eq_ok_of_spelled {text rest : List Char} {kind : Lexeme}
    (spelled : Spelled text kind) (noSign : ∀ sign, kind ≠ .symbol sign)
    (separates : Separates rest) :
    ∃ c tail, text = c :: tail ∧ isSpace c = false ∧
      lexeme c (tail ++ rest) = .ok (kind, rest) := by
  cases spelled with
  | @word c name starts continues =>
      exact ⟨c, name, rfl,
        isSpace_eq_false_of_continuesWord (continuesWord_of_startsWord starts),
        lexeme_of_startsWord starts continues separates⟩
  | dollars => exact ⟨'$', ['$'], rfl, by decide, rfl⟩
  | @dollarWord name notNil continues =>
      exact ⟨'$', name, rfl, by decide,
        dollarWord_of_all_continuesWord notNil continues separates⟩
  | @hexadecimal x digits value marked continues denotes bounded =>
      refine ⟨'0', x :: digits, rfl, by decide, ?_⟩
      rcases span_append continues separates.noAlphanum with ⟨taken, left⟩
      rw [lexeme_of_isDigit (by decide)]
      simp [number, marked, hexadecimal, taken, left, denotes, bounded]
  | @decimal digits value isNumeral denotes bounded =>
      rcases List.exists_cons_of_ne_nil isNumeral.1 with ⟨c, others, rfl⟩
      refine ⟨c, others, rfl, isSpace_eq_false_of_isNumeral isNumeral, ?_⟩
      rw [lexeme_of_isNumeral isNumeral separates.noDigit separates.unmarked,
        integer_of_isNumeral denotes bounded separates]
  | @real digits fraction isNumeral isFraction =>
      rcases List.exists_cons_of_ne_nil isNumeral.1 with ⟨c, others, rfl⟩
      refine ⟨c, others ++ '.' :: fraction, rfl, isSpace_eq_false_of_isNumeral isNumeral, ?_⟩
      rw [List.append_assoc, List.cons_append,
        lexeme_of_isNumeral isNumeral (by simp) (by simp),
        real_of_isNumeral isFraction separates]
  | @string body value escaped =>
      refine ⟨'"', body ++ ['"'], rfl, by decide, ?_⟩
      have noWord : startsWord '"' = false := by decide
      simp [lexeme, noWord, quoted_eq_ok_of_escaped escaped, Except.map]
  | @bytes body value escaped =>
      refine ⟨'b', '"' :: (body ++ ['"']), rfl, by decide, ?_⟩
      simp [lexeme, quoted_eq_ok_of_escaped escaped, Except.map]
  | symbol sign => exact absurd rfl (noSign sign)

/-- What may start a sign starts nothing else. -/
theorem lexeme_of_ofChar? {c : Char} {sign : Symbol} (single : Symbol.ofChar? c = some sign)
    (rest : List Char) :
    isSpace c = false ∧ lexeme c rest =
      match Symbol.read c rest with
      | some (sign, left) => .ok (.symbol sign, left)
      | none => .error (.unexpectedCharacter c) := by
  unfold Symbol.ofChar? at single
  split at single
  case h_22 => cases single
  all_goals exact ⟨by decide, rfl⟩

/-! ## Whole texts -/

/-- Which tokens a text is made of. -/
inductive Spells : List Char → List Lexeme → Prop where
  | nil : Spells [] []
  | space {c : Char} {rest : List Char} {kinds : List Lexeme} (blank : isSpace c = true)
      (behind : Spells rest kinds) : Spells (c :: rest) kinds
  | token {c : Char} {rest left : List Char} {kind : Lexeme} {kinds : List Lexeme}
      (visible : isSpace c = false) (read : lexeme c rest = .ok (kind, left))
      (behind : Spells left kinds) : Spells (c :: rest) (kind :: kinds)

namespace Spells

/-- White space before the tokens of a text does not matter. -/
theorem of_dropWhile {text : List Char} {kinds : List Lexeme}
    (spells : Spells (text.dropWhile isSpace) kinds) : Spells text kinds := by
  induction text with
  | nil => exact spells
  | cons c rest ih =>
      cases blank : isSpace c with
      | true => exact .space blank (ih (by simpa [blank] using spells))
      | false => simpa [blank] using spells

/-- Without white space before them the tokens are the same. -/
theorem dropWhile {p : Char → Bool} (onlyBlanks : ∀ c, p c = true → isSpace c = true)
    {text : List Char} {kinds : List Lexeme} (spells : Spells text kinds) :
    Spells (text.dropWhile p) kinds := by
  induction spells with
  | nil => exact .nil
  | @space c rest kinds blank behind ih =>
      cases inside : p c with
      | true => rwa [List.dropWhile_cons_of_pos inside]
      | false =>
          rw [List.dropWhile_cons_of_neg (by simp [inside])]
          exact .space blank behind
  | @token c rest left kind kinds visible read behind _ =>
      have outside : ¬ p c = true := fun inside => by simp [onlyBlanks c inside] at visible
      rw [List.dropWhile_cons_of_neg outside]
      exact .token visible read behind

/-- A text with tokens has a first visible character. -/
theorem exists_visible {text : List Char} {first : Lexeme} {kinds : List Lexeme}
    (spells : Spells text (first :: kinds)) :
    ∃ blanks c rest, text = blanks ++ c :: rest ∧ blanks.all isSpace = true ∧
      isSpace c = false := by
  generalize isKinds : first :: kinds = tokens at spells
  induction spells with
  | nil => cases isKinds
  | @space d rest _ blank _ ih =>
      rcases ih isKinds with ⟨blanks, c, behind, rfl, allBlank, visible⟩
      exact ⟨d :: blanks, c, behind, rfl, by simp [blank, allBlank], visible⟩
  | @token c rest _ _ _ visible _ _ _ => exact ⟨[], c, rest, rfl, rfl, visible⟩

/-- Every token of a text is spelled there. -/
theorem spelled_of_mem {text : List Char} {kinds : List Lexeme} (spells : Spells text kinds) :
    ∀ kind ∈ kinds, ∃ spelling, Spelled spelling kind := by
  induction spells with
  | nil => simp
  | space _ _ ih => exact ih
  | token _ read _ ih =>
      rcases spelled_of_lexeme_eq_ok read with ⟨spelling, _, spelled⟩
      exact List.forall_mem_cons.mpr ⟨⟨spelling, spelled⟩, ih⟩

/-- A spelling that is no sign may stand before a separating text. -/
theorem spelled_append {text rest : List Char} {kind : Lexeme} {kinds : List Lexeme}
    (spelled : Spelled text kind) (noSign : ∀ sign, kind ≠ .symbol sign)
    (separates : Separates rest) (spells : Spells rest kinds) :
    Spells (text ++ rest) (kind :: kinds) := by
  rcases lexeme_eq_ok_of_spelled spelled noSign separates with ⟨c, tail, rfl, visible, read⟩
  exact .token visible read spells

/-- A sign of one character may stand before a text that does not make it a
longer one. -/
theorem sign_cons {c : Char} {sign : Symbol} {rest : List Char} {kinds : List Lexeme}
    (single : Symbol.ofChar? c = some sign)
    (noPair : ∀ d ∈ rest.head?, Symbol.ofPair? c d = none) (spells : Spells rest kinds) :
    Spells (c :: rest) (.symbol sign :: kinds) := by
  rcases lexeme_of_ofChar? single rest with ⟨visible, read⟩
  rw [Symbol.read_eq_some_of_ofChar? single noPair] at read
  exact .token visible read spells

/-- A sign of two characters may stand before any text. -/
theorem pair_cons {c d : Char} {sign : Symbol} {rest : List Char} {kinds : List Lexeme}
    (pair : Symbol.ofPair? c d = some sign) (spells : Spells rest kinds) :
    Spells (c :: d :: rest) (.symbol sign :: kinds) := by
  rcases Symbol.exists_ofChar?_of_ofPair? pair with ⟨single, found⟩
  rcases lexeme_of_ofChar? found (d :: rest) with ⟨visible, read⟩
  rw [Symbol.read_eq_some_of_ofPair? pair] at read
  exact .token visible read spells

end Spells

/-- What the tokenizer does at the next character that is no white space. -/
theorem scan_eq (total : Nat) (text : List Char) :
    scan total text = match text.dropWhile isSpace with
      | [] => ([⟨.eof, total + 1⟩], none)
      | c :: rest =>
          match lexeme c rest with
          | .error error => ([], some error)
          | .ok (kind, left) =>
              (⟨kind, total - rest.length⟩ :: (scan total left).1, (scan total left).2) := by
  rw [scan.eq_def]
  split
  · rename_i blank
    rw [blank]
  · rename_i c rest blank
    split <;> simp_all

/-- A text of the relation is scanned to its end. -/
theorem exists_scan_eq_of_spells {text : List Char} {kinds : List Lexeme}
    (spells : Spells text kinds) (total : Nat) :
    ∃ tokens, scan total text = (tokens ++ [⟨.eof, total + 1⟩], none) ∧
      tokens.map Token.kind = kinds := by
  induction spells with
  | nil => exact ⟨[], by rw [scan_eq]; rfl, rfl⟩
  | space blank _ ih =>
      rcases ih with ⟨tokens, scanned, isKinds⟩
      refine ⟨tokens, ?_, isKinds⟩
      rw [scan_eq, List.dropWhile_cons_of_pos blank, ← scan_eq, scanned]
  | @token c rest left kind kinds visible read _ ih =>
      rcases ih with ⟨tokens, scanned, isKinds⟩
      refine ⟨⟨kind, total - rest.length⟩ :: tokens, ?_, by rw [List.map_cons, isKinds]⟩
      rw [scan_eq, List.dropWhile_cons_of_neg (by simp [visible])]
      simp only [read, scanned, List.cons_append]

/-- A text that is scanned to its end belongs to the relation. -/
theorem spells_of_scan_eq {total : Nat} {text : List Char} {tokens : List Token}
    (scanned : scan total text = (tokens, none)) :
    ∃ front, tokens = front ++ [⟨.eof, total + 1⟩] ∧
      Spells text (front.map Token.kind) := by
  fun_induction scan total text generalizing tokens with
  | case1 text blank =>
      cases scanned
      exact ⟨[], rfl, .of_dropWhile (by rw [blank]; exact .nil)⟩
  | case2 => cases scanned
  | case3 text c rest start kind left read _ others stop behind ih =>
      cases scanned
      rcases ih behind with ⟨front, rfl, spells⟩
      refine ⟨⟨kind, total - rest.length⟩ :: front, rfl, .of_dropWhile ?_⟩
      have visible : isSpace c = false := by
        have head := List.head?_dropWhile_not isSpace text
        simpa [start] using head
      rw [start]
      exact .token visible read spells

/-- The tokens of a text of the relation, with the end of the text behind them. -/
theorem exists_tokenize_eq_ok_of_spells {text : List Char} {kinds : List Lexeme}
    (spells : Spells text kinds) :
    ∃ tokens, tokenize text = .ok (tokens ++ [⟨.eof, text.length + 1⟩]) ∧
      tokens.map Token.kind = kinds := by
  rcases exists_scan_eq_of_spells spells text.length with ⟨tokens, scanned, isKinds⟩
  exact ⟨tokens, by rw [tokenize, scanned], isKinds⟩

/-- Only texts of the relation have tokens. -/
theorem spells_of_tokenize_eq_ok {text : List Char} {tokens : List Token}
    (read : tokenize text = .ok tokens) :
    ∃ front, tokens = front ++ [⟨.eof, text.length + 1⟩] ∧
      Spells text (front.map Token.kind) := by
  unfold tokenize at read
  split at read
  · rename_i scanned
    cases read
    exact spells_of_scan_eq scanned
  · cases read

end AnalyzerGlue.Token
