import AnalyzerGlue.Token.Lexer

/-!
# How tokens are written

`Spelled` says which texts denote which token, class by class and without an
order in which the classes are tried.  The token that is read at the start of a
text is always spelled by what has been taken from the text.  The other way
round, a spelling is read as its token if what follows cannot be taken for a
part of it.
-/

namespace AnalyzerGlue

/-! ## Signs -/

namespace Symbol

theorem toList_text_of_ofChar?_eq_some {c : Char} {sign : Symbol}
    (found : ofChar? c = some sign) : sign.text.toList = [c] := by
  unfold ofChar? at found
  split at found <;> cases found <;> rfl

theorem toList_text_of_ofPair?_eq_some {c d : Char} {sign : Symbol}
    (found : ofPair? c d = some sign) : sign.text.toList = [c, d] := by
  unfold ofPair? at found
  split at found <;> cases found <;> rfl

/-- A sign is written with one character or with two. -/
theorem text_cases (sign : Symbol) :
    (∃ c, sign.text.toList = [c] ∧ ofChar? c = some sign) ∨
      ∃ c d, sign.text.toList = [c, d] ∧ ofPair? c d = some sign := by
  cases sign
  case dotQuestion | questionDot | doubleColon | shiftLeft | shiftRight | equal | notEqual |
      lessEqual | greaterEqual | andAnd | orOr =>
    exact .inr ⟨_, _, rfl, rfl⟩
  all_goals exact .inl ⟨_, rfl, rfl⟩

/-- A space ends every sign. -/
theorem ofPair?_space (c : Char) : ofPair? c ' ' = none := by
  unfold ofPair?
  split <;> simp_all

/-- A sign is read from the characters that it is written with. -/
theorem eq_append_of_read_eq_some {c : Char} {rest left : List Char} {sign : Symbol}
    (found : read c rest = some (sign, left)) : c :: rest = sign.text.toList ++ left := by
  cases rest with
  | nil =>
      rcases Option.map_eq_some_iff.mp found with ⟨_, single, same⟩
      cases same
      rw [toList_text_of_ofChar?_eq_some single, List.append_nil]
  | cons d rest =>
      simp only [read] at found
      split at found
      · rename_i pair
        cases found
        rw [toList_text_of_ofPair?_eq_some pair]
        rfl
      · rcases Option.map_eq_some_iff.mp found with ⟨_, single, same⟩
        cases same
        rw [toList_text_of_ofChar?_eq_some single]
        rfl

/-- A sign of one character is read unless it begins a longer one. -/
theorem read_eq_some_of_ofChar? {c : Char} {sign : Symbol} (single : ofChar? c = some sign)
    {rest : List Char} (noPair : ∀ d ∈ rest.head?, ofPair? c d = none) :
    read c rest = some (sign, rest) := by
  cases rest with
  | nil => simp [read, single]
  | cons d rest => simp [read, noPair d rfl, single]

theorem read_eq_some_of_ofPair? {c d : Char} {sign : Symbol} (pair : ofPair? c d = some sign)
    (rest : List Char) : read c (d :: rest) = some (sign, rest) := by
  simp [read, pair]

/-- A sign of two characters starts with a sign of one. -/
theorem exists_ofChar?_of_ofPair? {c d : Char} {sign : Symbol} (pair : ofPair? c d = some sign) :
    ∃ single, ofChar? c = some single := by
  unfold ofPair? at pair
  split at pair
  case h_12 => cases pair
  all_goals exact ⟨_, rfl⟩

end Symbol

namespace Token

open AnalyzerGlue.Text

/-! ## Quoted text -/

/-- The text between quotes and the text that it stands for. -/
inductive Escaped : List Char → List Char → Prop where
  | nil : Escaped [] []
  | plain {c : Char} {body value : List Char} (noQuote : c ≠ '"') (noEscape : c ≠ '\\')
      (rest : Escaped body value) : Escaped (c :: body) (c :: value)
  | simple {letter c : Char} {body value : List Char} (denotes : simpleEscape? letter = some c)
      (rest : Escaped body value) : Escaped ('\\' :: letter :: body) (c :: value)
  | hex {first second c : Char} {body value : List Char}
      (denotes : hexEscape? first second = some c) (rest : Escaped body value) :
      Escaped ('\\' :: 'x' :: first :: second :: body) (c :: value)

theorem map_eq_ok_iff {α β : Type} {f : α → β} {result : Except LexError α} {value : β} :
    result.map f = .ok value ↔ ∃ inner, result = .ok inner ∧ f inner = value := by
  cases result <;> simp [Except.map]

/-- What is read behind an opening quote ends with a closing one. -/
theorem escaped_of_quoted_eq_ok {text value left : List Char}
    (read : quoted text = .ok (value, left)) :
    ∃ body, text = body ++ '"' :: left ∧ Escaped body value := by
  fun_induction quoted text generalizing value with
  | case1 => cases read
  | case2 rest =>
      cases read
      exact ⟨[], rfl, .nil⟩
  | case3 first second rest c found ih =>
      rcases map_eq_ok_iff.mp read with ⟨⟨inner, behind⟩, equation, same⟩
      cases same
      rcases ih equation with ⟨body, rfl, escaped⟩
      exact ⟨'\\' :: 'x' :: first :: second :: body, rfl, .hex found escaped⟩
  | case4 | case5 | case6 | case7 => cases read
  | case8 letter rest _ _ _ c found ih =>
      rcases map_eq_ok_iff.mp read with ⟨⟨inner, behind⟩, equation, same⟩
      cases same
      rcases ih equation with ⟨body, rfl, escaped⟩
      exact ⟨'\\' :: letter :: body, rfl, .simple found escaped⟩
  | case9 => cases read
  | case10 c rest noQuote _ _ _ _ noEscape ih =>
      rcases map_eq_ok_iff.mp read with ⟨⟨inner, behind⟩, equation, same⟩
      cases same
      rcases ih equation with ⟨body, rfl, escaped⟩
      refine ⟨c :: body, rfl, .plain noQuote ?_ escaped⟩
      rcases List.exists_cons_of_ne_nil (show body ++ '"' :: left ≠ [] by simp) with
        ⟨letter, rest, notNil⟩
      exact fun isEscape => noEscape letter rest isEscape notNil

/-- Whatever follows the closing quote, the text before it is read. -/
theorem quoted_eq_ok_of_escaped {body value : List Char} (escaped : Escaped body value)
    (rest : List Char) : quoted (body ++ '"' :: rest) = .ok (value, rest) := by
  induction escaped with
  | nil => simp [quoted]
  | @plain c body value noQuote noEscape _ ih =>
      rw [List.cons_append, quoted.eq_def]
      split <;> simp_all [Except.map]
  | @simple letter c body value denotes _ ih =>
      unfold simpleEscape? at denotes
      split at denotes <;> cases denotes <;> simp [quoted, simpleEscape?, ih, Except.map]
  | hex denotes _ ih =>
      simp [quoted, denotes, ih, Except.map]

/-! ## Classes of tokens -/

/-- Texts of at least one digit. -/
def IsNumeral (text : List Char) : Prop :=
  text ≠ [] ∧ text.all Char.isDigit = true

/-- Which texts denote which token. -/
inductive Spelled : List Char → Lexeme → Prop where
  | word {c : Char} {name : List Char} (starts : startsWord c = true)
      (continues : name.all continuesWord = true) :
      Spelled (c :: name) (ofWord (c :: name))
  | dollars : Spelled ['$', '$'] (.word "$$")
  | dollarWord {name : List Char} (notNil : name ≠ [])
      (continues : name.all continuesWord = true) :
      Spelled ('$' :: name) (.word (String.ofList ('$' :: name)))
  | hexadecimal {x : Char} {digits : List Char} {value : Nat} (marked : x = 'x' ∨ x = 'X')
      (continues : digits.all Char.isAlphanum = true)
      (denotes : readNat? 16 digits = some value) (bounded : value ≤ maxWord) :
      Spelled ('0' :: x :: digits) (.int value)
  | decimal {digits : List Char} {value : Nat} (isNumeral : IsNumeral digits)
      (denotes : readNat? 10 digits = some value) (bounded : value ≤ maxWord) :
      Spelled digits (.int value)
  | real {digits fraction : List Char} (isNumeral : IsNumeral digits)
      (isFraction : IsNumeral fraction) :
      Spelled (digits ++ '.' :: fraction) (.real (String.ofList (digits ++ '.' :: fraction)))
  | string {body value : List Char} (escaped : Escaped body value) :
      Spelled ('"' :: (body ++ ['"'])) (.string (String.ofList value))
  | bytes {body value : List Char} (escaped : Escaped body value) :
      Spelled ('b' :: '"' :: (body ++ ['"'])) (.bytes (String.ofList value))
  | symbol (sign : Symbol) : Spelled sign.text.toList (.symbol sign)

/-- The tokens of words are words, truth values, the null value and the operator
for membership. -/
theorem ofWord_cases (word : List Char) :
    (∃ value, ofWord word = .bool value) ∨ ofWord word = .null ∨ ofWord word = .isIn ∨
      ofWord word = .word (String.ofList word) := by
  unfold ofWord
  split <;> simp

theorem Spelled.ne_eof {text : List Char} {kind : Lexeme} (spelled : Spelled text kind) :
    kind ≠ .eof := by
  cases spelled with
  | @word c name _ _ =>
      rcases ofWord_cases (c :: name) with ⟨value, equation⟩ | equation | equation | equation <;>
        simp [equation]
  | _ => simp

/-- A word is spelled by its own characters. -/
theorem Spelled.eq_toList_of_word {text : List Char} {name : String}
    (spelled : Spelled text (.word name)) : text = name.toList := by
  generalize same : Lexeme.word name = kind at spelled
  cases spelled with
  | @word c rest _ _ =>
      rcases ofWord_cases (c :: rest) with ⟨value, equation⟩ | equation | equation | equation <;>
        rw [equation] at same <;> cases same
      rw [String.toList_ofList]
  | dollars =>
      cases same
      rfl
  | dollarWord =>
      cases same
      rw [String.toList_ofList]
  | _ => cases same

/-- A real number is spelled by its own characters. -/
theorem Spelled.eq_toList_of_real {text : List Char} {number : String}
    (spelled : Spelled text (.real number)) : text = number.toList := by
  generalize same : Lexeme.real number = kind at spelled
  cases spelled with
  | @word c rest _ _ =>
      rcases ofWord_cases (c :: rest) with ⟨value, equation⟩ | equation | equation | equation <;>
        rw [equation] at same <;> cases same
  | real =>
      cases same
      rw [String.toList_ofList]
  | _ => cases same

/-! ## What is read is spelled -/

theorem spelled_of_hexadecimal_eq_ok {x : Char} {text left : List Char} {kind : Lexeme}
    (marked : x = 'x' ∨ x = 'X') (read : hexadecimal text = .ok (kind, left)) :
    ∃ spelling, '0' :: x :: text = spelling ++ left ∧ Spelled spelling kind := by
  simp only [hexadecimal] at read
  split at read
  · rename_i value denotes
    split at read
    · rename_i bounded
      cases read
      refine ⟨'0' :: x :: text.takeWhile Char.isAlphanum, ?_,
        .hexadecimal marked List.all_takeWhile denotes bounded⟩
      rw [List.cons_append, List.cons_append, List.takeWhile_append_dropWhile]
    · cases read
  · cases read

theorem spelled_of_integer_eq_ok {digits rest left : List Char} {kind : Lexeme}
    (isNumeral : IsNumeral digits) (read : decimalTail.integer digits rest = .ok (kind, left)) :
    ∃ spelling, digits ++ rest = spelling ++ left ∧ Spelled spelling kind := by
  simp only [decimalTail.integer] at read
  split at read
  · cases read
  · split at read
    · rename_i value denotes
      split at read
      · rename_i bounded
        cases read
        exact ⟨digits, rfl, .decimal isNumeral denotes bounded⟩
      · cases read
    · cases read

theorem spelled_of_decimalTail_eq_ok {digits rest left : List Char} {kind : Lexeme}
    (isNumeral : IsNumeral digits) (read : decimalTail digits rest = .ok (kind, left)) :
    ∃ spelling, digits ++ rest = spelling ++ left ∧ Spelled spelling kind := by
  unfold decimalTail at read
  split at read
  · rename_i d rest
    split at read
    · rename_i isDigit
      cases read
      have isFraction : IsNumeral ((d :: rest).takeWhile Char.isDigit) :=
        ⟨by simp [isDigit], List.all_takeWhile⟩
      refine ⟨_, ?_, .real isNumeral isFraction⟩
      rw [List.append_assoc, List.cons_append, List.takeWhile_append_dropWhile]
    · exact spelled_of_integer_eq_ok isNumeral read
  · exact spelled_of_integer_eq_ok isNumeral read

theorem spelled_of_number_eq_ok {c : Char} {rest left : List Char} {kind : Lexeme}
    (digit : c.isDigit = true) (read : number c rest = .ok (kind, left)) :
    ∃ spelling, c :: rest = spelling ++ left ∧ Spelled spelling kind := by
  have decimalCase : ∀ {text : List Char}, decimal (c :: text) = .ok (kind, left) →
      ∃ spelling, c :: text = spelling ++ left ∧ Spelled spelling kind := by
    intro text equation
    have isNumeral : IsNumeral ((c :: text).takeWhile Char.isDigit) :=
      ⟨by simp [digit], List.all_takeWhile⟩
    have spelled := spelled_of_decimalTail_eq_ok isNumeral equation
    rwa [List.takeWhile_append_dropWhile] at spelled
  unfold number at read
  split at read
  · rename_i x digits
    split at read
    · rename_i isHex
      rcases isHex with ⟨rfl, marked⟩
      exact spelled_of_hexadecimal_eq_ok marked read
    · exact decimalCase read
  · exact decimalCase read

theorem spelled_of_dollarWord_eq_ok {rest left : List Char} {kind : Lexeme}
    (read : dollarWord rest = .ok (kind, left)) :
    ∃ spelling, '$' :: rest = spelling ++ left ∧ Spelled spelling kind := by
  unfold dollarWord at read
  split at read
  · cases read
    exact ⟨['$', '$'], rfl, .dollars⟩
  · split at read
    · cases read
    · rename_i notNil
      cases read
      refine ⟨_, ?_, .dollarWord notNil List.all_takeWhile⟩
      rw [List.cons_append, List.takeWhile_append_dropWhile]

/-- The token at the start of a text is spelled by the characters that are taken
for it. -/
theorem spelled_of_lexeme_eq_ok {c : Char} {rest left : List Char} {kind : Lexeme}
    (read : lexeme c rest = .ok (kind, left)) :
    ∃ spelling, c :: rest = spelling ++ left ∧ Spelled spelling kind := by
  unfold lexeme at read
  split at read
  · rename_i isBytes
    rcases isBytes with ⟨rfl, quote⟩
    rcases List.head?_eq_some_iff.mp quote with ⟨others, rfl⟩
    rcases map_eq_ok_iff.mp read with ⟨⟨value, behind⟩, quotedRead, same⟩
    cases same
    rcases escaped_of_quoted_eq_ok quotedRead with ⟨body, isBody, escaped⟩
    exact ⟨'b' :: '"' :: (body ++ ['"']), by simpa using isBody, .bytes escaped⟩
  split at read
  · rename_i starts
    cases read
    refine ⟨_, ?_, .word starts List.all_takeWhile⟩
    rw [List.cons_append, List.takeWhile_append_dropWhile]
  split at read
  · rename_i isDollar
    subst isDollar
    exact spelled_of_dollarWord_eq_ok read
  split at read
  · rename_i digit
    exact spelled_of_number_eq_ok digit read
  split at read
  · rename_i isQuote
    subst isQuote
    rcases map_eq_ok_iff.mp read with ⟨⟨value, behind⟩, quotedRead, same⟩
    cases same
    rcases escaped_of_quoted_eq_ok quotedRead with ⟨body, rfl, escaped⟩
    exact ⟨'"' :: (body ++ ['"']), by simp, .string escaped⟩
  split at read
  · rename_i sign behind found
    cases read
    exact ⟨_, Symbol.eq_append_of_read_eq_some found, .symbol sign⟩
  · cases read

end Token

end AnalyzerGlue
