import AnalyzerGlue.Text.Letter
import AnalyzerGlue.Text.Numeral
import AnalyzerGlue.Token

/-!
# Reading tokens

`lexeme` reads the token at the start of a text that is not blank there and
returns the text behind it; `scan` reads all tokens up to the end of the text
or the first error.  Reading makes progress with each token, which is what
`length_le_of_lexeme_eq_ok` says and why `scan` ends.

* Words start with a letter or an underscore and go on with letters, numbers
  and underscores.  `$$` and a word after `$` are words too.
* Integers are decimal, or hexadecimal after `0x`; a decimal point makes a
  real number only if a digit follows it.
* Strings stand in double quotes, byte strings in double quotes after `b`.
-/

namespace AnalyzerGlue

open AnalyzerGlue.Text

/-- The ways in which a text fails to be a sequence of tokens. -/
inductive LexError where
  | unexpectedCharacter (c : Char)
  | invalidInteger (text : String)
  | invalidEscape (text : String)
  | unterminatedString
deriving DecidableEq, Repr

/-- The message of an error. -/
def LexError.message : LexError → String
  | .unexpectedCharacter c => "unexpected character '" ++ String.singleton c ++ "'"
  | .invalidInteger text => "invalid integer '" ++ text ++ "'"
  | .invalidEscape text => "invalid escape sequence '" ++ text ++ "'"
  | .unterminatedString => "unterminated string literal"

namespace Token

/-! ## Quoted text -/

/-- The character that a one-letter escape stands for. -/
def simpleEscape? : Char → Option Char
  | 'n' => some '\n'
  | 'r' => some '\r'
  | 't' => some '\t'
  | '\\' => some '\\'
  | '"' => some '"'
  | '0' => some '\x00'
  | _ => none

/-- The character with the code point that two characters spell in base
sixteen.  A plus sign may stand in front of a single digit. -/
def hexEscape? (first second : Char) : Option Char :=
  (readUnsigned? 16 255 [first, second]).map Char.ofNat

/-- Reads the text behind an opening quote up to the closing one, and returns
the text it stands for with what follows the closing quote. -/
def quoted : List Char → Except LexError (List Char × List Char)
  | [] => .error .unterminatedString
  | '"' :: rest => .ok ([], rest)
  | '\\' :: 'x' :: first :: second :: rest =>
      match hexEscape? first second with
      | some c => (quoted rest).map fun (value, left) => (c :: value, left)
      | none => .error (.invalidEscape (String.ofList ['\\', 'x', first, second]))
  | ['\\'] | ['\\', 'x'] | ['\\', 'x', _] => .error .unterminatedString
  | '\\' :: letter :: rest =>
      match simpleEscape? letter with
      | some c => (quoted rest).map fun (value, left) => (c :: value, left)
      | none => .error (.invalidEscape (String.ofList ['\\', letter]))
  | c :: rest => (quoted rest).map fun (value, left) => (c :: value, left)

/-! ## Numbers -/

/-- Reads an integer in base sixteen, without its `0x`. -/
def hexadecimal (text : List Char) : Except LexError (Lexeme × List Char) :=
  let digits := text.takeWhile Char.isAlphanum
  match readNat? 16 digits with
  | some value =>
      if value ≤ maxWord then .ok (.int value, text.dropWhile Char.isAlphanum)
      else .error (.invalidInteger (String.ofList ('0' :: 'x' :: digits)))
  | none => .error (.invalidInteger (String.ofList ('0' :: 'x' :: digits)))

/-- Reads what follows the digits before a decimal point, if there is one. -/
def decimalTail (digits : List Char) : List Char → Except LexError (Lexeme × List Char)
  | '.' :: d :: rest =>
      if d.isDigit then
        let fraction := (d :: rest).takeWhile Char.isDigit
        .ok (.real (String.ofList (digits ++ '.' :: fraction)),
          (d :: rest).dropWhile Char.isDigit)
      else integer digits ('.' :: d :: rest)
  | rest => integer digits rest
where
  /-- An integer, unless a word is glued to its digits. -/
  integer (digits rest : List Char) : Except LexError (Lexeme × List Char) :=
    if rest.head?.any startsWord then
      .error (.invalidInteger (String.ofList (digits ++ rest.takeWhile continuesWord)))
    else
      match readNat? 10 digits with
      | some value =>
          if value ≤ maxWord then .ok (.int value, rest)
          else .error (.invalidInteger (String.ofList digits))
      | none => .error (.invalidInteger (String.ofList digits))

/-- Reads a number in base ten. -/
def decimal (text : List Char) : Except LexError (Lexeme × List Char) :=
  decimalTail (text.takeWhile Char.isDigit) (text.dropWhile Char.isDigit)

/-- Reads a number that starts with the digit `c`. -/
def number (c : Char) (rest : List Char) : Except LexError (Lexeme × List Char) :=
  match rest with
  | x :: digits =>
      if c = '0' ∧ (x = 'x' ∨ x = 'X') then hexadecimal digits
      else decimal (c :: rest)
  | [] => decimal [c]

/-! ## Tokens -/

/-- The token for a word; four words have a meaning of their own. -/
def ofWord (word : List Char) : Lexeme :=
  match String.ofList word with
  | "True" => .bool true
  | "False" => .bool false
  | "Null" => .null
  | "in" => .isIn
  | name => .word name

/-- Reads a word behind a dollar sign. -/
def dollarWord : List Char → Except LexError (Lexeme × List Char)
  | '$' :: rest => .ok (.word "$$", rest)
  | text =>
      match text.takeWhile continuesWord with
      | [] => .error (.unexpectedCharacter '$')
      | name => .ok (.word (String.ofList ('$' :: name)), text.dropWhile continuesWord)

/-- Reads the token at the start of a text that begins with the character `c`,
which is no white space. -/
def lexeme (c : Char) (rest : List Char) : Except LexError (Lexeme × List Char) :=
  if c = 'b' ∧ rest.head? = some '"' then
    (quoted rest.tail).map fun (value, left) => (.bytes (String.ofList value), left)
  else if startsWord c then
    .ok (ofWord (c :: rest.takeWhile continuesWord), rest.dropWhile continuesWord)
  else if c = '$' then dollarWord rest
  else if c.isDigit then number c rest
  else if c = '"' then
    (quoted rest).map fun (value, left) => (.string (String.ofList value), left)
  else
    match Symbol.read c rest with
    | some (sign, left) => .ok (.symbol sign, left)
    | none => .error (.unexpectedCharacter c)

/-! ## Progress -/

/-- A quoted text ends before the text it is read from. -/
theorem length_lt_of_quoted_eq_ok {text value left : List Char}
    (read : quoted text = .ok (value, left)) : left.length < text.length := by
  have mapped : ∀ {rest : List Char} {c : Char} {value left : List Char},
      ((quoted rest).map fun (value, left) => (c :: value, left)) = .ok (value, left) →
        ∃ inner, quoted rest = .ok (inner, left) := by
    intro rest c value left equation
    cases result : quoted rest with
    | error error => simp [result, Except.map] at equation
    | ok pair =>
        rcases pair with ⟨inner, behind⟩
        simp only [result, Except.map, Except.ok.injEq, Prod.mk.injEq] at equation
        exact ⟨inner, by rw [equation.2]⟩
  fun_induction quoted text generalizing value with
  | case1 => simp at read
  | case2 rest =>
      simp only [Except.ok.injEq, Prod.mk.injEq] at read
      simp [read.2]
  | case3 first second rest c found ih =>
      rcases mapped read with ⟨inner, equation⟩
      have := ih equation
      simp only [List.length_cons]
      omega
  | case4 => simp at read
  | case5 => simp at read
  | case6 => simp at read
  | case7 => simp at read
  | case8 letter rest _ _ _ c found ih =>
      rcases mapped read with ⟨inner, equation⟩
      have := ih equation
      simp only [List.length_cons]
      omega
  | case9 => simp at read
  | case10 c rest _ _ _ _ _ _ ih =>
      rcases mapped read with ⟨inner, equation⟩
      have := ih equation
      simp only [List.length_cons]
      omega

/-- A hexadecimal integer ends within the text it is read from. -/
theorem length_le_of_hexadecimal_eq_ok {text left : List Char} {kind : Lexeme}
    (read : hexadecimal text = .ok (kind, left)) : left.length ≤ text.length := by
  simp only [hexadecimal] at read
  split at read
  · split at read
    · simp only [Except.ok.injEq, Prod.mk.injEq] at read
      rw [← read.2]
      exact (List.dropWhile_sublist _).length_le
    · simp at read
  · simp at read

/-- An integer leaves all that follows its digits. -/
theorem eq_of_integer_eq_ok {digits rest left : List Char} {kind : Lexeme}
    (read : decimalTail.integer digits rest = .ok (kind, left)) : left = rest := by
  simp only [decimalTail.integer] at read
  split at read
  · simp at read
  · split at read
    · split at read
      · simp only [Except.ok.injEq, Prod.mk.injEq] at read
        exact read.2.symm
      · simp at read
    · simp at read

/-- A number ends within the text that follows its first digits. -/
theorem length_le_of_decimalTail_eq_ok {digits rest left : List Char} {kind : Lexeme}
    (read : decimalTail digits rest = .ok (kind, left)) :
    left.length ≤ rest.length := by
  unfold decimalTail at read
  split at read
  · split at read
    · simp only [Except.ok.injEq, Prod.mk.injEq] at read
      rw [← read.2]
      exact Nat.le_succ_of_le (List.dropWhile_sublist _).length_le
    · exact Nat.le_of_eq (congrArg List.length (eq_of_integer_eq_ok read))
  · exact Nat.le_of_eq (congrArg List.length (eq_of_integer_eq_ok read))

/-- A number takes in at least its first digit. -/
theorem length_le_of_number_eq_ok {c : Char} {rest left : List Char} {kind : Lexeme}
    (digit : c.isDigit = true) (read : number c rest = .ok (kind, left)) :
    left.length ≤ rest.length := by
  have decimalCase : ∀ {text : List Char},
      decimal (c :: text) = .ok (kind, left) → left.length ≤ text.length := by
    intro text equation
    have bound := length_le_of_decimalTail_eq_ok equation
    simp only [List.dropWhile_cons, digit, if_true] at bound
    exact Nat.le_trans bound (List.dropWhile_sublist _).length_le
  unfold number at read
  split at read
  · split at read
    · exact Nat.le_succ_of_le (length_le_of_hexadecimal_eq_ok read)
    · exact decimalCase read
  · exact decimalCase read

/-- Behind a token there is no more text than behind its first character. -/
theorem length_le_of_lexeme_eq_ok {c : Char} {rest left : List Char} {kind : Lexeme}
    (read : lexeme c rest = .ok (kind, left)) : left.length ≤ rest.length := by
  have quotedCase : ∀ (build : List Char → Lexeme) {text : List Char},
      ((quoted text).map fun (value, left) => (build value, left)) = .ok (kind, left) →
        left.length ≤ text.length := by
    intro build text equation
    cases result : quoted text with
    | error error => simp [result, Except.map] at equation
    | ok pair =>
        rcases pair with ⟨value, behind⟩
        simp only [result, Except.map, Except.ok.injEq, Prod.mk.injEq] at equation
        rw [← equation.2]
        exact Nat.le_of_lt (length_lt_of_quoted_eq_ok result)
  unfold lexeme at read
  split at read
  · have bound := quotedCase (fun value => .bytes (String.ofList value)) read
    rw [List.length_tail] at bound
    exact Nat.le_trans bound (Nat.sub_le _ _)
  · split at read
    · simp only [Except.ok.injEq, Prod.mk.injEq] at read
      rw [← read.2]
      exact (List.dropWhile_sublist _).length_le
    · split at read
      · unfold dollarWord at read
        split at read
        · simp only [Except.ok.injEq, Prod.mk.injEq] at read
          rw [← read.2]
          exact Nat.le_succ _
        · split at read
          · simp at read
          · simp only [Except.ok.injEq, Prod.mk.injEq] at read
            rw [← read.2]
            exact (List.dropWhile_sublist _).length_le
      · split at read
        · rename_i digit
          exact length_le_of_number_eq_ok digit read
        · split at read
          · exact quotedCase (fun value => .string (String.ofList value)) read
          · split at read
            · rename_i found
              simp only [Except.ok.injEq, Prod.mk.injEq] at read
              rw [← read.2]
              exact Symbol.length_le_of_read_eq_some found
            · simp at read

/-! ## Whole texts -/

/-- The tokens of a text up to its end or the first error.  The text is what is
left of one of `total` characters, which gives the columns. -/
def scan (total : Nat) (text : List Char) : List Token × Option LexError :=
  match blank : text.dropWhile isSpace with
  | [] => ([⟨.eof, total + 1⟩], none)
  | c :: rest =>
      match result : lexeme c rest with
      | .error error => ([], some error)
      | .ok (kind, left) =>
          have : left.length < text.length := by
            have bound := length_le_of_lexeme_eq_ok result
            have start : (text.dropWhile isSpace).length ≤ text.length :=
              (List.dropWhile_sublist isSpace).length_le
            rw [blank, List.length_cons] at start
            omega
          let (tokens, stop) := scan total left
          (⟨kind, total - rest.length⟩ :: tokens, stop)
termination_by text.length

/-- All tokens of a text; the last one marks its end. -/
def tokenize (text : List Char) : Except LexError (List Token) :=
  match scan text.length text with
  | (tokens, none) => .ok tokens
  | (_, some error) => .error error

end Token

end AnalyzerGlue
