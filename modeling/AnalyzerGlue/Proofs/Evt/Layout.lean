import AnalyzerGlue.Evt.Chunk
import AnalyzerGlue.Evt.Cursor
import AnalyzerGlue.Proofs.Expr.Nesting
import AnalyzerGlue.Proofs.Token.Reading

/-!
# How an argument is laid out

Three readers go over the text of an argument: the scanner looks for the end of
the statement, the cursor for the end of the argument, and the tokenizer for
tokens.  `Layout` is the view that they share.  It takes a text apart into
strings, brackets, commas in brackets, and characters that mean nothing to the
first two readers.

The scanner does not know escapes: to it a string ends at a quote that has no
backslash directly before it.  This is why a string must not end in an escaped
backslash.
-/

namespace AnalyzerGlue.Evt

open AnalyzerGlue.Text AnalyzerGlue.Token

/-- Characters without a meaning to the scanner and the cursor, unless they are in
a string. -/
def isInert (c : Char) : Bool :=
  !(['"', '\\', '#', ';', '(', ')', '[', ']', '\x7b', '\x7d', ','].contains c)

theorem isInert_iff {c : Char} : isInert c = true ↔
    c ≠ '"' ∧ c ≠ '\\' ∧ c ≠ '#' ∧ c ≠ ';' ∧ c ≠ '(' ∧ c ≠ ')' ∧ c ≠ '[' ∧ c ≠ ']' ∧
      c ≠ '\x7b' ∧ c ≠ '\x7d' ∧ c ≠ ',' := by
  simp [isInert]

/-- Texts in which all strings are closed, with the number of brackets that are
open before and behind them. -/
inductive Layout : Nat → List Char → Nat → Prop where
  | nil (level : Nat) : Layout level [] level
  | inert {c : Char} {rest : List Char} {level behind : Nat} (inert : isInert c = true)
      (layout : Layout level rest behind) : Layout level (c :: rest) behind
  | opening {c : Char} {rest : List Char} {level behind : Nat} (opens : c = '(' ∨ c = '[')
      (layout : Layout (level + 1) rest behind) : Layout level (c :: rest) behind
  | closing {c : Char} {rest : List Char} {level behind : Nat} (closes : c = ')' ∨ c = ']')
      (layout : Layout level rest behind) : Layout (level + 1) (c :: rest) behind
  | comma {rest : List Char} {level behind : Nat} (layout : Layout (level + 1) rest behind) :
      Layout (level + 1) (',' :: rest) behind
  | string {body value rest : List Char} {level behind : Nat} (escaped : Escaped body value)
      (free : body.getLast? ≠ some '\\') (layout : Layout level rest behind) :
      Layout level ('"' :: (body ++ '"' :: rest)) behind

/-! ## The cursor -/

/-- All characters of a numeral are digits. -/
theorem isSome_digitValue?_of_readDigits? {base value result : Nat} {text : List Char}
    (read : readDigits? base value text = some result) :
    ∀ c ∈ text, (digitValue? c).isSome = true := by
  induction text generalizing value with
  | nil => simp
  | cons c rest ih =>
      simp only [readDigits?, Option.bind_eq_bind, Option.bind_eq_some_iff] at read
      rcases read with ⟨digit, isDigit, read⟩
      split at read
      · exact List.forall_mem_cons.mpr ⟨by rw [isDigit]; rfl, ih read⟩
      · cases read

theorem isSome_digitValue?_of_readNat? {base value : Nat} {text : List Char}
    (read : readNat? base text = some value) : ∀ c ∈ text, (digitValue? c).isSome = true := by
  unfold readNat? at read
  split at read
  · cases read
  · exact isSome_digitValue?_of_readDigits? read

/-- A hexadecimal escape has no quote and no backslash in it. -/
theorem ne_of_hexEscape? {first second c : Char} (denotes : hexEscape? first second = some c) :
    (first ≠ '"' ∧ second ≠ '"') ∧ first ≠ '\\' ∧ second ≠ '\\' := by
  rcases Option.map_eq_some_iff.mp denotes with ⟨value, read, _⟩
  have digits : ∀ d ∈ [first, second], d = '+' ∨ (digitValue? d).isSome = true := by
    simp only [readUnsigned?, Option.bind_eq_bind, Option.bind_eq_some_iff] at read
    rcases read with ⟨number, read, _⟩
    split at read
    · rename_i rest isSigned
      rw [isSigned]
      exact List.forall_mem_cons.mpr
        ⟨.inl rfl, fun d member => .inr (isSome_digitValue?_of_readNat? read d member)⟩
    · exact fun d member => .inr (isSome_digitValue?_of_readNat? read d member)
  have noQuote : ∀ d ∈ [first, second], d ≠ '"' := by
    rintro d member rfl
    exact absurd (digits _ member) (by decide)
  have noEscape : ∀ d ∈ [first, second], d ≠ '\\' := by
    rintro d member rfl
    exact absurd (digits _ member) (by decide)
  simp only [List.forall_mem_cons] at noQuote noEscape
  exact ⟨⟨noQuote.1, noQuote.2.1⟩, noEscape.1, noEscape.2.1⟩

/-- The cursor takes a string up to the quote that closes it. -/
theorem cutExpr_of_escaped {body value rest taken left : List Char} {level : Nat}
    (escaped : Escaped body value)
    (cut : Reader.cutExpr .code level rest = .ok (taken, left)) :
    Reader.cutExpr .string level (body ++ '"' :: rest) = .ok (body ++ '"' :: taken, left) := by
  induction escaped with
  | nil => simp [Reader.cutExpr, Reader.cutExpr.extend, cut, Except.map]
  | plain noQuote noEscape _ ih =>
      simp [Reader.cutExpr, Reader.cutExpr.extend, noQuote, noEscape, ih, Except.map]
  | simple denotes _ ih =>
      simp [Reader.cutExpr, Reader.cutExpr.extend, ih, Except.map]
  | hex denotes _ ih =>
      rcases ne_of_hexEscape? denotes with ⟨noQuote, noEscape⟩
      simp [Reader.cutExpr, Reader.cutExpr.extend, noQuote, noEscape, ih, Except.map]

/-- The cursor goes over a text as it is laid out. -/
theorem cutExpr_of_layout {level behind : Nat} {text rest taken left : List Char}
    (layout : Layout level text behind)
    (cut : Reader.cutExpr .code behind rest = .ok (taken, left)) :
    Reader.cutExpr .code level (text ++ rest) = .ok (text ++ taken, left) := by
  induction layout with
  | nil => exact cut
  | inert inert _ ih =>
      simp [Reader.cutExpr, Reader.cutExpr.extend, isInert_iff.mp inert, ih cut, Except.map]
  | opening opens _ ih =>
      rcases opens with rfl | rfl <;>
        simp [Reader.cutExpr, Reader.cutExpr.extend, ih cut, Except.map]
  | closing closes _ ih =>
      rcases closes with rfl | rfl <;>
        simp [Reader.cutExpr, Reader.cutExpr.extend, ih cut, Except.map]
  | comma _ ih => simp [Reader.cutExpr, Reader.cutExpr.extend, ih cut, Except.map]
  | string escaped _ _ ih =>
      have string := cutExpr_of_escaped escaped (ih cut)
      simp [Reader.cutExpr, Reader.cutExpr.extend, string, Except.map]

/-! ## The scanner -/

namespace Scanner

variable {kept rest : List Char} {start line : Nat}

/-- Behind its first visible character a chunk grows by the characters of its
line. -/
theorem Partial.keep_of_started {mode next : Mode} {c : Char} (sameLine : c ≠ '\n') :
    Partial.keep ⟨mode, kept, some start, line⟩ next c =
      ⟨next, c :: kept, some start, line⟩ := by
  simp [Partial.keep, sameLine]

/-- A character of a string that does not end it. -/
theorem nextFrom_string_cons {c : Char} (goesOn : c = '"' → kept.head? = some '\\')
    (sameLine : c ≠ '\n') :
    nextFrom ⟨.string, kept, some start, line⟩ (c :: rest) =
      nextFrom ⟨.string, c :: kept, some start, line⟩ rest := by
  have stays : ¬ (c = '"' ∧ ¬ Partial.escaped ⟨.string, kept, some start, line⟩) := by
    rintro ⟨isQuote, unescaped⟩
    exact unescaped (by simp [Partial.escaped, goesOn isQuote])
  rw [nextFrom]
  simp only [if_neg stays, Partial.keep_of_started sameLine]

/-- A character between strings. -/
theorem nextFrom_plain_cons {c : Char} (unescaped : kept.head? ≠ some '\\')
    (isPlain : c ≠ '"' ∧ c ≠ '#' ∧ c ≠ ';') (sameLine : c ≠ '\n') :
    nextFrom ⟨.plain, kept, some start, line⟩ (c :: rest) =
      nextFrom ⟨.plain, c :: kept, some start, line⟩ rest := by
  rw [nextFrom]
  simp [Partial.escaped, unescaped, isPlain, Partial.keep_of_started sameLine]

/-- The quote that opens a string. -/
theorem nextFrom_plain_quote (unescaped : kept.head? ≠ some '\\') :
    nextFrom ⟨.plain, kept, some start, line⟩ ('"' :: rest) =
      nextFrom ⟨.string, '"' :: kept, some start, line⟩ rest := by
  rw [nextFrom]
  simp [Partial.escaped, unescaped, Partial.keep_of_started]

/-- The quote that closes a string. -/
theorem nextFrom_string_quote (unescaped : kept.head? ≠ some '\\') :
    nextFrom ⟨.string, kept, some start, line⟩ ('"' :: rest) =
      nextFrom ⟨.plain, '"' :: kept, some start, line⟩ rest := by
  rw [nextFrom]
  simp [Partial.escaped, unescaped, Partial.keep_of_started]

/-- The scanner keeps the body of a string. -/
theorem nextFrom_of_escaped {body value : List Char} (escaped : Escaped body value)
    (oneLine : '\n' ∉ body) :
    nextFrom ⟨.string, kept, some start, line⟩ (body ++ rest) =
      nextFrom ⟨.string, body.reverse ++ kept, some start, line⟩ rest := by
  induction escaped generalizing kept with
  | nil => rfl
  | plain noQuote _ _ ih =>
      simp only [List.mem_cons, not_or] at oneLine
      rcases oneLine with ⟨sameLine, oneLine⟩
      rw [List.cons_append, nextFrom_string_cons (fun isQuote => absurd isQuote noQuote)
        (Ne.symm sameLine), ih oneLine, List.reverse_cons, List.append_assoc]
      rfl
  | @simple letter _ body _ denotes _ ih =>
      simp only [List.mem_cons, not_or] at oneLine
      rcases oneLine with ⟨-, sameLine, oneLine⟩
      rw [List.cons_append, List.cons_append, nextFrom_string_cons (by simp) (by decide),
        nextFrom_string_cons (fun _ => rfl) (Ne.symm sameLine), ih oneLine]
      simp
  | @hex first second _ body _ denotes _ ih =>
      simp only [List.mem_cons, not_or] at oneLine
      rcases oneLine with ⟨-, -, firstLine, secondLine, oneLine⟩
      rcases ne_of_hexEscape? denotes with ⟨⟨noQuote, noQuote'⟩, -⟩
      simp only [List.cons_append]
      rw [nextFrom_string_cons (by simp) (by decide), nextFrom_string_cons (by simp) (by decide),
        nextFrom_string_cons (fun isQuote => absurd isQuote noQuote) (Ne.symm firstLine),
        nextFrom_string_cons (fun isQuote => absurd isQuote noQuote') (Ne.symm secondLine),
        ih oneLine]
      simp

/-- Texts that the scanner adds to a chunk as they are, and behind which it is in
no string and behind no backslash. -/
def Keeps (text : List Char) : Prop :=
  ∀ {kept : List Char} (rest : List Char) (start line : Nat), kept.head? ≠ some '\\' →
    nextFrom ⟨.plain, kept, some start, line⟩ (text ++ rest) =
        nextFrom ⟨.plain, text.reverse ++ kept, some start, line⟩ rest ∧
      (text.reverse ++ kept).head? ≠ some '\\'

theorem keeps_nil : Keeps [] :=
  fun _ _ _ unescaped => ⟨rfl, unescaped⟩

theorem keeps_cons {c : Char} {text : List Char}
    (isPlain : c ≠ '"' ∧ c ≠ '#' ∧ c ≠ ';') (noEscape : c ≠ '\\') (sameLine : c ≠ '\n')
    (keeps : Keeps text) : Keeps (c :: text) := by
  intro kept rest start line unescaped
  rcases @keeps (c :: kept) rest start line (by simpa using noEscape) with ⟨step, unescapedBehind⟩
  rw [List.cons_append, nextFrom_plain_cons unescaped isPlain sameLine, step, List.reverse_cons,
    List.append_assoc]
  exact ⟨rfl, unescapedBehind⟩

theorem keeps_string {body value text : List Char} (escaped : Escaped body value)
    (free : body.getLast? ≠ some '\\') (oneLine : '\n' ∉ body) (keeps : Keeps text) :
    Keeps ('"' :: (body ++ '"' :: text)) := by
  intro kept rest start line unescaped
  rcases @keeps ('"' :: (body.reverse ++ '"' :: kept)) rest start line (by simp) with
    ⟨step, unescapedBehind⟩
  have unescapedEnd : (body.reverse ++ '"' :: kept).head? ≠ some '\\' := by
    cases isLast : body.getLast? with
    | none => simp [isLast]
    | some last => simpa [isLast] using free
  have same : ('"' :: (body ++ '"' :: text)).reverse ++ kept =
      text.reverse ++ '"' :: (body.reverse ++ '"' :: kept) := by simp
  rw [same]
  refine ⟨?_, unescapedBehind⟩
  calc
    _ = nextFrom ⟨.plain, kept, some start, line⟩ ('"' :: (body ++ '"' :: (text ++ rest))) := by
      simp
    _ = _ := by
      rw [nextFrom_plain_quote unescaped, nextFrom_of_escaped escaped oneLine,
        nextFrom_string_quote unescapedEnd, step]

/-- The scanner goes over one line of text as it is laid out. -/
theorem keeps_of_layout {level behind : Nat} {text : List Char}
    (layout : Layout level text behind) (oneLine : '\n' ∉ text) : Keeps text := by
  induction layout with
  | nil => exact keeps_nil
  | inert inert _ ih =>
      simp only [List.mem_cons, not_or] at oneLine
      rcases isInert_iff.mp inert with ⟨noQuote, noEscape, noComment, noEnd, -⟩
      exact keeps_cons ⟨noQuote, noComment, noEnd⟩ noEscape (Ne.symm oneLine.1) (ih oneLine.2)
  | opening opens _ ih =>
      simp only [List.mem_cons, not_or] at oneLine
      rcases opens with rfl | rfl <;>
        exact keeps_cons (by decide) (by decide) (by decide) (ih oneLine.2)
  | closing closes _ ih =>
      simp only [List.mem_cons, not_or] at oneLine
      rcases closes with rfl | rfl <;>
        exact keeps_cons (by decide) (by decide) (by decide) (ih oneLine.2)
  | comma _ ih =>
      simp only [List.mem_cons, not_or] at oneLine
      exact keeps_cons (by decide) (by decide) (by decide) (ih oneLine.2)
  | string escaped free _ ih =>
      simp only [List.mem_cons, List.mem_append, not_or] at oneLine
      exact keeps_string escaped free oneLine.2.1 (ih oneLine.2.2.2)

end Scanner

/-! ## The tokenizer -/

/-- The characters of words mean nothing to the other readers. -/
theorem isInert_of_continuesWord {c : Char} (continues : continuesWord c = true) :
    isInert c = true := by
  refine isInert_iff.mpr ⟨?_, ?_, ?_, ?_, ?_, ?_, ?_, ?_, ?_, ?_, ?_⟩ <;>
    rintro rfl <;> exact absurd continues (by decide)

theorem isInert_of_isSpace {c : Char} (blank : isSpace c = true) : isInert c = true := by
  refine isInert_iff.mpr ⟨?_, ?_, ?_, ?_, ?_, ?_, ?_, ?_, ?_, ?_, ?_⟩ <;>
    rintro rfl <;> exact absurd blank (by decide)

namespace Layout

variable {rest : List Char} {level behind : Nat}

theorem inert_append {text : List Char} (inert : text.all isInert = true)
    (layout : Layout level rest behind) : Layout level (text ++ rest) behind := by
  induction text with
  | nil => exact layout
  | cons c text ih =>
      rw [List.all_cons, Bool.and_eq_true] at inert
      exact .inert inert.1 (ih inert.2)

theorem word_append {text : List Char} (continues : text.all continuesWord = true)
    (layout : Layout level rest behind) : Layout level (text ++ rest) behind :=
  layout.inert_append <| List.all_eq_true.mpr fun c member =>
    isInert_of_continuesWord (List.all_eq_true.mp continues c member)

theorem numeral_append {text : List Char} (isNumeral : IsNumeral text)
    (layout : Layout level rest behind) : Layout level (text ++ rest) behind :=
  layout.word_append <| List.all_eq_true.mpr fun c member =>
    continuesWord_of_isDigit (List.all_eq_true.mp isNumeral.2 c member)

/-- A sign is a bracket, a comma or means nothing. -/
theorem sign_append (sign : Symbol) {middle : Nat}
    (step : Expr.levelBehind level (.symbol sign) = some middle)
    (layout : Layout middle rest behind) : Layout level (sign.text.toList ++ rest) behind := by
  cases sign
  case leftBracket | leftParen =>
    cases step
    exact .opening (by decide) layout
  case rightBracket | rightParen =>
    cases level with
    | zero => cases step
    | succ outer =>
        cases step
        exact .closing (by decide) layout
  case comma =>
    cases level with
    | zero => cases step
    | succ outer =>
        cases step
        exact .comma layout
  all_goals
    cases step
    exact inert_append (by decide) layout

end Layout

/-- The tokens that are written in quotes. -/
def IsQuoted : Lexeme → Prop
  | .string _ | .bytes _ => True
  | _ => False

instance : DecidablePred IsQuoted
  | .string _ | .bytes _ => .isTrue trivial
  | .word _ | .int _ | .real _ | .bool _ | .null | .isIn | .symbol _ | .eof => .isFalse id

theorem getLast?_ne_of_not_suffix {body : List Char} (front : List Char)
    (free : ¬ ['\\', '"'] <:+ front ++ (body ++ ['"'])) : body.getLast? ≠ some '\\' := by
  intro isLast
  rcases List.getLast?_eq_some_iff.mp isLast with ⟨others, rfl⟩
  exact free ⟨front ++ others, by simp⟩

/-- A token is laid out by its spelling, if that does not end in a backslash and a
quote. -/
theorem Layout.spelled_append {spelling rest : List Char} {kind : Lexeme}
    {level middle behind : Nat} (spelled : Spelled spelling kind)
    (step : Expr.levelBehind level kind = some middle)
    (free : IsQuoted kind → ¬ ['\\', '"'] <:+ spelling) (layout : Layout middle rest behind) :
    Layout level (spelling ++ rest) behind := by
  cases spelled with
  | @word c name starts continues =>
      have same : middle = level := by
        rcases ofWord_cases (c :: name) with ⟨value, equation⟩ | equation | equation | equation <;>
          rw [equation] at step <;> cases step <;> rfl
      subst same
      exact layout.word_append (by simp [continuesWord_of_startsWord starts, continues])
  | dollars =>
      cases step
      exact layout.inert_append (by decide)
  | dollarWord _ continues =>
      cases step
      exact .inert (by decide) (layout.word_append continues)
  | @hexadecimal x digits _ marked continues _ _ =>
      cases step
      have inert : isInert x = true := by rcases marked with rfl | rfl <;> decide
      have wordChars : digits.all continuesWord = true := List.all_eq_true.mpr fun c member =>
        continuesWord_of_isAlphanum (List.all_eq_true.mp continues c member)
      exact .inert (by decide) (.inert inert (layout.word_append wordChars))
  | decimal isNumeral _ _ =>
      cases step
      exact layout.numeral_append isNumeral
  | real isNumeral isFraction =>
      cases step
      rw [List.append_assoc, List.cons_append]
      exact (Layout.inert (by decide) (layout.numeral_append isFraction)).numeral_append isNumeral
  | @string body _ escaped =>
      cases step
      rw [List.cons_append, List.append_assoc]
      exact .string escaped (getLast?_ne_of_not_suffix ['"'] (free trivial)) layout
  | @bytes body _ escaped =>
      cases step
      rw [List.cons_append, List.cons_append, List.append_assoc]
      exact .inert (by decide)
        (.string escaped (getLast?_ne_of_not_suffix ['b', '"'] (free trivial)) layout)
  | symbol sign => exact layout.sign_append sign step

/-- The tokens of a text, each after the characters that it is spelled with, up to
the end of the text or the first error. -/
def spellings (text : List Char) : List (List Char × Lexeme) :=
  match text with
  | [] => []
  | c :: rest =>
      if isSpace c then spellings rest
      else
        match read : lexeme c rest with
        | .error _ => []
        | .ok (kind, left) =>
            have := length_le_of_lexeme_eq_ok read
            ((c :: rest).take ((c :: rest).length - left.length), kind) :: spellings left
termination_by text.length

theorem spellings_space {c : Char} (blank : isSpace c = true) (rest : List Char) :
    spellings (c :: rest) = spellings rest := by
  rw [spellings, if_pos blank]

theorem spellings_token {c : Char} {rest left spelling : List Char} {kind : Lexeme}
    (visible : isSpace c = false) (read : lexeme c rest = .ok (kind, left))
    (isSpelling : c :: rest = spelling ++ left) :
    spellings (c :: rest) = (spelling, kind) :: spellings left := by
  rw [spellings, if_neg (by simp [visible])]
  split
  · rename_i failed
    rw [read] at failed
    cases failed
  · rename_i readAgain
    rw [read] at readAgain
    cases readAgain
    simp [isSpelling]

/-- Whether the quote that closes a string or a byte string of a text is directly
behind a backslash. -/
def ClosesBehindBackslash (text : List Char) : Prop :=
  ∃ token ∈ spellings text, IsQuoted token.2 ∧ ['\\', '"'] <:+ token.1

instance (text : List Char) : Decidable (ClosesBehindBackslash text) :=
  inferInstanceAs (Decidable (∃ token ∈ _, _ ∧ _))

/-- A text of tokens that keep the level of brackets is laid out by their
spellings. -/
theorem layout_of_spells {text : List Char} {kinds : List Lexeme} {level behind : Nat}
    (spells : Spells text kinds) (reaches : Expr.levelAfter level kinds = some behind)
    (free : ¬ ClosesBehindBackslash text) : Layout level text behind := by
  induction spells generalizing level with
  | nil =>
      cases reaches
      exact .nil _
  | space blank _ ih =>
      rw [ClosesBehindBackslash, spellings_space blank] at free
      exact .inert (isInert_of_isSpace blank) (ih reaches free)
  | token visible read _ ih =>
      rcases spelled_of_lexeme_eq_ok read with ⟨spelling, isSpelling, spelled⟩
      rw [ClosesBehindBackslash, spellings_token visible read isSpelling] at free
      simp only [List.mem_cons, exists_eq_or_imp, not_or] at free
      rw [Expr.levelAfter] at reaches
      split at reaches
      · rename_i middle step
        rw [isSpelling]
        exact .spelled_append spelled step (fun quoted suffix => free.1 ⟨quoted, suffix⟩)
          (ih reaches free.2)
      · cases reaches

end AnalyzerGlue.Evt
