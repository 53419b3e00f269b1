import AnalyzerGlue.Proofs.Evt.Steps
import AnalyzerGlue.Proofs.Evt.Words

/-!
# Readers that take a text

`Takes` says that a reader takes exactly a given text off what is behind the
cursor, and what it returns for it.  What follows the text is named, because it
decides where ids, words, numbers and arguments end.
-/

namespace AnalyzerGlue.Evt.Reader

open AnalyzerGlue.Text

variable {α β : Type}

/-- The reader takes the text before the given rest and returns the value,
whatever has been read before. -/
def Takes (reader : Reader α) (text rest : List Char) (value : α) : Prop :=
  ∀ seen, reader ⟨seen, text ++ rest⟩ = .ok value ⟨text.reverse ++ seen, rest⟩

namespace Takes

variable {reader : Reader α} {text more rest : List Char} {value : α}

theorem pure (value : α) (rest : List Char) : Takes (pure value) [] rest value :=
  fun _ => rfl

/-- One reader takes its text before the text of the next one. -/
theorem bind {next : α → Reader β} {result : β} (first : Takes reader text (more ++ rest) value)
    (second : Takes (next value) more rest result) :
    Takes (reader >>= next) (text ++ more) rest result := by
  intro seen
  rw [List.append_assoc, bind_of_eq_ok (first seen), second, List.reverse_append,
    List.append_assoc]

/-- A reader that takes nothing before the next one. -/
theorem before {next : α → Reader β} {result : β} (first : Takes reader [] (text ++ rest) value)
    (second : Takes (next value) text rest result) :
    Takes (reader >>= next) text rest result :=
  first.bind second

/-- A reader behind which nothing more is taken. -/
theorem andReturn {result : α → β} (first : Takes reader text rest value) :
    Takes (reader >>= fun value => Pure.pure (result value)) text rest (result value) := by
  intro seen
  rw [bind_of_eq_ok (first seen)]
  rfl

/-- A round that is the last one. -/
theorem loop_done {round : α → Reader (Round α)} {state final : α}
    (read : Takes (round state) text rest (.done final)) :
    Takes (loop round state) text rest final :=
  fun seen => loop_of_done (read seen)

/-- A round that takes something and wants another one. -/
theorem loop_again {round : α → Reader (Round α)} {state next final : α}
    (read : Takes (round state) text (more ++ rest) (.again next)) (notNil : text ≠ [])
    (others : Takes (loop round next) more rest final) :
    Takes (loop round state) (text ++ more) rest final := by
  intro seen
  have further : (more ++ rest).length < (text ++ (more ++ rest)).length := by
    rw [@List.length_append _ text]
    exact Nat.lt_add_of_pos_left (List.length_pos_iff.mpr notNil)
  rw [loop, List.append_assoc, read seen]
  simp only [if_pos further]
  rw [others, List.reverse_append, List.append_assoc]

end Takes

/-! ## Tokens -/

/-- Whether a token does not follow. -/
def Lacks (token : String) (rest : List Char) : Prop :=
  dropStart? token.toList (rest.dropWhile isAsciiSpace) = none

theorem skipSpaces_of_blanks {blanks text : List Char} (blank : blanks.all isAsciiSpace = true)
    (visible : ∀ c ∈ text.head?, isAsciiSpace c = false) (seen : List Char) :
    Cursor.skipSpaces ⟨seen, blanks ++ text⟩ = ⟨blanks.reverse ++ seen, text⟩ := by
  have ends : text.takeWhile isAsciiSpace = [] ∧ text.dropWhile isAsciiSpace = text := by
    cases text with
    | nil => exact ⟨rfl, rfl⟩
    | cons c text =>
        have stops : ¬ isAsciiSpace c = true := by rw [visible c rfl]; simp
        exact ⟨List.takeWhile_cons_of_neg stops, List.dropWhile_cons_of_neg stops⟩
  have all := List.all_eq_true.mp blank
  rw [Cursor.skipSpaces, List.takeWhile_append_of_pos all, List.dropWhile_append_of_pos all, ends.1,
    ends.2, List.append_nil]
  rfl

/-- A token is found behind blanks. -/
theorem after?_of_blanks {blanks : List Char} {token : String} {c : Char} {others : List Char}
    (blank : blanks.all isAsciiSpace = true) (isToken : token.toList = c :: others)
    (visible : isAsciiSpace c = false) (rest seen : List Char) :
    Cursor.after? ⟨seen, blanks ++ token.toList ++ rest⟩ token =
      some ⟨(blanks ++ token.toList).reverse ++ seen, rest⟩ := by
  have skipped := @skipSpaces_of_blanks blanks (token.toList ++ rest) blank
    (by rw [isToken]; rintro d ⟨rfl⟩; exact visible) seen
  rw [List.append_assoc, Cursor.after?, skipped]
  simp only [dropStart?_eq_some_iff.mpr rfl, Option.map_some, Cursor.past, List.reverse_append,
    List.append_assoc]

theorem after?_of_lacks {token : String} {rest : List Char} (lacks : Lacks token rest)
    (seen : List Char) : Cursor.after? ⟨seen, rest⟩ token = none := by
  rw [Cursor.after?, Option.map_eq_none_iff]
  exact lacks

section

variable {token : String} {blanks rest others : List Char} {c : Char}

theorem takes_expect (blank : blanks.all isAsciiSpace = true) (isToken : token.toList = c :: others)
    (visible : isAsciiSpace c = false) :
    Takes (expect token) (blanks ++ token.toList) rest ⟨⟩ := by
  intro seen
  rw [expect, get_bind, after?_of_blanks blank isToken visible]
  rfl

theorem takes_expect_here (isToken : token.toList = c :: others)
    (visible : isAsciiSpace c = false) : Takes (expect token) token.toList rest ⟨⟩ :=
  @takes_expect token [] rest others c rfl isToken visible

theorem takes_accept (blank : blanks.all isAsciiSpace = true) (isToken : token.toList = c :: others)
    (visible : isAsciiSpace c = false) :
    Takes (accept token) (blanks ++ token.toList) rest true :=
  fun seen => accept_of_after?_eq_some (after?_of_blanks blank isToken visible rest seen)

theorem takes_accept_of_lacks (lacks : Lacks token rest) : Takes (accept token) [] rest false :=
  fun seen => accept_of_after?_eq_none (after?_of_lacks lacks seen)

theorem takes_sees
    (follows : (dropStart? token.toList (rest.dropWhile isAsciiSpace)).isSome = true) :
    Takes (sees token) [] rest true := by
  intro seen
  rw [List.nil_append, sees, get_bind, Cursor.at?, Cursor.after?, Option.isSome_map]
  exact congrArg (fun found => EStateM.Result.ok found _) follows

theorem takes_sees_of_lacks (lacks : Lacks token rest) : Takes (sees token) [] rest false := by
  intro seen
  rw [List.nil_append, sees, get_bind, Cursor.at?, after?_of_lacks lacks]
  rfl

variable {first other : Reader α} {text : List Char} {value : α}

/-- The reader of what follows a token goes on behind the token. -/
theorem Takes.accepted (blank : blanks.all isAsciiSpace = true)
    (isToken : token.toList = c :: others) (visible : isAsciiSpace c = false)
    (reads : Takes first text rest value) :
    Takes (do if ← accept token then first else other) (blanks ++ token.toList ++ text) rest
      value :=
  (takes_accept blank isToken visible).bind reads

/-- The other reader goes on where the token does not follow. -/
theorem Takes.passed (lacks : Lacks token (text ++ rest)) (reads : Takes other text rest value) :
    Takes (do if ← accept token then first else other) text rest value :=
  (takes_accept_of_lacks lacks).before reads

end

/-! ## Ids and words -/

/-- A part behind a blank is taken if it is cut off the text there. -/
theorem takes_span {cut : Cursor → List Char × List Char} {text rest : List Char}
    (visible : ∀ c ∈ (text ++ rest).head?, isAsciiSpace c = false)
    (isCut : ∀ seen, cut ⟨' ' :: seen, text ++ rest⟩ = (text, rest)) :
    Takes (span cut) (' ' :: text) rest text := by
  intro seen
  have skipped : spaces ⟨seen, ' ' :: (text ++ rest)⟩ = .ok ⟨⟩ ⟨' ' :: seen, text ++ rest⟩ := by
    have isBehind := @skipSpaces_of_blanks [' '] (text ++ rest) rfl visible seen
    exact congrArg (EStateM.Result.ok PUnit.unit) isBehind
  rw [List.cons_append, span, bind_of_eq_ok skipped, get_bind]
  simp only [isCut]
  rw [set_bind, List.reverse_cons, List.append_assoc]
  rfl

theorem isAsciiSpace_of_isIdPart {c : Char} (isPart : isIdPart c = true) :
    isAsciiSpace c = false := by
  rw [Bool.eq_false_iff]
  intro blank
  have space := isSpace_of_isAsciiSpace blank
  simp only [isIdPart, Bool.or_eq_true, beq_iff_eq] at isPart
  rcases isPart with (((alphanum | rfl) | rfl) | rfl) | rfl
  · rw [isSpace_eq_false_of_continuesWord (continuesWord_of_isAlphanum alphanum)] at space
    cases space
  all_goals exact absurd blank (by decide)

/-- An id starts with a visible character. -/
theorem IsId.exists_cons {text : List Char} (isId : IsId text) :
    ∃ c others, text = c :: others ∧ isAsciiSpace c = false := by
  rcases text with _ | ⟨c, others⟩
  · exact absurd rfl isId.notNil
  · rcases cutId_cons_cases isId.whole with ⟨_, _, belongs, _⟩ | ⟨isNil, _⟩
    · exact ⟨c, others, rfl, isAsciiSpace_of_isIdPart (isIdPart_of_isIdChar belongs)⟩
    · cases isNil

/-- An id is taken up to a text that ends it. -/
theorem takes_ident {name : QualName} {rest : List Char} (isId : IsId name.text.toList)
    (ends : EndsId rest) : Takes ident (' ' :: name.text.toList) rest name := by
  rcases isId.exists_cons with ⟨c, others, isText, visible⟩
  have cut : ∀ seen, cutId ((' ' :: seen).head?) (name.text.toList ++ rest) =
      (name.text.toList, rest) := fun _ =>
    cutId_append ((@cutId_congr (some ' ') none rfl _).trans isId.whole) ends
  have spanned : Takes (span fun cursor => cutId cursor.seen.head? cursor.rest)
      (' ' :: name.text.toList) rest name.text.toList :=
    takes_span (by rw [isText]; rintro d ⟨rfl⟩; exact visible) cut
  have isName : QualName.ofWritten name.text.toList = name := by
    rw [QualName.ofWritten, QualName.escapePercent_of_not_mem isId.noPercent,
      String.ofList_toList]
  intro seen
  rw [isText] at spanned isName ⊢
  rw [ident, bind_of_eq_ok (spanned seen)]
  exact congrArg (fun value => EStateM.Result.ok value _) isName

/-- A word is taken up to a text that ends it. -/
theorem takes_wordUpTo {ends : Char → Bool} {word : String} {rest : List Char}
    (isWord : IsWord ends word.toList)
    (stops : ∀ c ∈ rest.head?, (!isAsciiSpace c && !ends c) = false) :
    Takes (wordUpTo ends) (' ' :: word.toList) rest word := by
  rcases Token.span_append (List.all_eq_true.mpr isWord.2) stops with ⟨taken, left⟩
  have isWhole : String.ofList word.toList = word := String.ofList_toList
  rcases isText : word.toList with _ | ⟨c, others⟩
  · exact absurd isText isWord.1
  have visible : isAsciiSpace c = false := by
    have belongs := isWord.2 c (by rw [isText]; exact List.mem_cons_self)
    rw [Bool.and_eq_true] at belongs
    simpa using belongs.1
  rw [isText] at taken left isWhole
  have spanned := @takes_span (fun cursor =>
      (cursor.rest.takeWhile fun c => !isAsciiSpace c && !ends c,
        cursor.rest.dropWhile fun c => !isAsciiSpace c && !ends c)) (c :: others) rest
    (by rintro d ⟨rfl⟩; exact visible) (fun _ => by rw [taken, left])
  intro seen
  rw [wordUpTo, bind_of_eq_ok (spanned seen)]
  exact congrArg (fun value => EStateM.Result.ok value _) isWhole

/-! ## Numbers -/

theorem isAsciiSpace_of_isDigit {c : Char} (digit : c.isDigit = true) :
    isAsciiSpace c = false :=
  isAsciiSpace_of_isIdPart (by simp [isIdPart, Char.isAlphanum, digit])

/-- A number is written with digits, of which there is at least one. -/
theorem exists_toDigits_eq_cons (value : Nat) :
    ∃ c others, Nat.toDigits 10 value = c :: others ∧ c.isDigit = true ∧
      (c :: others).all Char.isDigit = true := by
  have allDigits : (Nat.toDigits 10 value).all Char.isDigit = true :=
    List.all_eq_true.mpr fun c => Nat.isDigit_of_mem_toDigits (by decide) (by decide)
  have notNil : Nat.toDigits 10 value ≠ [] := Nat.toDigits_ne_nil
  rcases isDigits : Nat.toDigits 10 value with _ | ⟨c, others⟩
  · exact absurd isDigits notNil
  · rw [isDigits] at allDigits
    refine ⟨c, others, rfl, ?_, allDigits⟩
    rw [List.all_cons, Bool.and_eq_true] at allDigits
    exact allDigits.1

/-- The digits of a number are read as the number. -/
theorem readNat?_toDigits (value : Nat) : readNat? 10 (Nat.toDigits 10 value) = some value := by
  rcases exists_toDigits_eq_cons value with ⟨c, others, isDigits, _, allDigits⟩
  rw [← isDigits] at allDigits
  rw [readNat?, if_neg (by simp [isDigits]), Token.readDigits?_of_all_isDigit allDigits,
    Nat.ofDigitChars_toDigits (by decide) (by decide)]

theorem readSigned?_of_unsigned {c : Char} {digits : List Char} {value : Nat}
    (noMinus : c ≠ '-') (noPlus : c ≠ '+') (read : readNat? 10 (c :: digits) = some value)
    (bounds : minSigned ≤ (value : Int) ∧ (value : Int) ≤ maxSigned) :
    readSigned? (c :: digits) = some (value : Int) := by
  unfold readSigned?
  split
  · rename_i isMinus
    cases isMinus
    exact absurd rfl noMinus
  · rename_i isPlus
    cases isPlus
    exact absurd rfl noPlus
  · rw [read]
    exact if_pos bounds

theorem readSigned?_minus {digits : List Char} {value : Nat}
    (read : readNat? 10 digits = some value)
    (bounds : minSigned ≤ -(value : Int) ∧ -(value : Int) ≤ maxSigned) :
    readSigned? ('-' :: digits) = some (-(value : Int)) := by
  rw [readSigned?, read]
  exact if_pos bounds

/-- A numeral with a sign is taken up to a character that is no digit. -/
theorem takes_integer_of_cutSign {sign digits rest : List Char} {value : Int}
    (isSign : cutSign (sign ++ digits ++ rest) = (sign, digits ++ rest))
    (visible : ∀ c ∈ (sign ++ digits ++ rest).head?, isAsciiSpace c = false)
    (allDigits : digits.all Char.isDigit = true) (notNil : digits ≠ [])
    (ends : ∀ c ∈ rest.head?, c.isDigit = false)
    (read : readSigned? (sign ++ digits) = some value) :
    Takes integer (sign ++ digits) rest value := by
  intro seen
  have skipped : spaces ⟨seen, sign ++ digits ++ rest⟩ = .ok ⟨⟩ ⟨seen, sign ++ digits ++ rest⟩ :=
    congrArg (EStateM.Result.ok PUnit.unit)
      (@skipSpaces_of_blanks [] (sign ++ digits ++ rest) rfl visible seen)
  rcases Token.span_append allDigits ends with ⟨taken, left⟩
  rw [integer, bind_of_eq_ok skipped, get_bind]
  simp only [isSign, taken, left, List.isEmpty_iff, if_neg notNil]
  rw [set_bind, read]
  rfl

/-- An integer is taken up to a character that is no digit. -/
theorem takes_integer {value : Int} {rest : List Char}
    (bounds : minSigned ≤ value ∧ value ≤ maxSigned)
    (ends : ∀ c ∈ rest.head?, c.isDigit = false) :
    Takes integer (toString value).toList rest value := by
  cases value with
  | ofNat number =>
      have isText : (toString (Int.ofNat number)).toList = Nat.toDigits 10 number := Nat.toList_repr
      have read := readNat?_toDigits number
      rcases exists_toDigits_eq_cons number with ⟨c, others, isDigits, digit, allDigits⟩
      have noMinus : c ≠ '-' := by
        rintro rfl
        cases digit
      have noPlus : c ≠ '+' := by
        rintro rfl
        cases digit
      rw [isDigits] at read isText
      rw [isText]
      refine @takes_integer_of_cutSign [] (c :: others) rest _ ?_ ?_ allDigits (by simp) ends ?_
      · simp [cutSign, noMinus, noPlus]
      · rintro d ⟨rfl⟩
        exact isAsciiSpace_of_isDigit digit
      · exact readSigned?_of_unsigned noMinus noPlus read bounds
  | negSucc number =>
      have isText : (toString (Int.negSucc number)).toList =
          '-' :: Nat.toDigits 10 (number + 1) := by
        show ("-" ++ toString (number + 1)).toList = _
        simp
      have read := readNat?_toDigits (number + 1)
      rcases exists_toDigits_eq_cons (number + 1) with ⟨c, others, isDigits, _, allDigits⟩
      rw [isDigits] at read isText
      rw [isText]
      refine @takes_integer_of_cutSign ['-'] (c :: others) rest _ rfl ?_ allDigits (by simp) ends ?_
      · rintro d ⟨rfl⟩
        decide
      · exact readSigned?_minus read bounds

/-! ## Ports -/

theorem toList_text_port (port : Port) :
    port.text.toList = Nat.toDigits 10 port.number ++ '/' :: port.transport.keyword.toList := by
  simp [Port.text]

/-- The keywords of transport protocols are told apart. -/
theorem find?_keyword (transport : Transport) (seen rest : List Char) :
    (Transport.all.find? fun other =>
      Cursor.at? ⟨seen, transport.keyword.toList ++ rest⟩ other.keyword) = some transport := by
  cases transport <;> rfl

theorem takes_keyword (transport : Transport) (rest : List Char) :
    Takes (expect transport.keyword) transport.keyword.toList rest ⟨⟩ := by
  cases transport <;> exact fun _ => rfl

/-- A port is taken as the endpoint of a range. -/
theorem takes_endpoint {port : Port} (bounded : port.number ≤ Port.maxNumber) (rest : List Char) :
    Takes endpoint (' ' :: port.text.toList) rest ⟨port.number, some port.transport⟩ := by
  rcases port with ⟨number, transport⟩
  rw [toList_text_port]
  rcases exists_toDigits_eq_cons number with ⟨c, others, isDigits, digit, allDigits⟩
  have read : (readNat? 10 (c :: others)).filter (· ≤ Port.maxNumber) = some number := by
    rw [← isDigits, readNat?_toDigits]
    exact Option.filter_some_pos (by simpa using bounded)
  simp only [isDigits]
  rcases @Token.span_append Char.isDigit (c :: others)
    ('/' :: transport.keyword.toList ++ rest) allDigits (by rintro d ⟨rfl⟩; rfl) with ⟨taken, left⟩
  have spanned := @takes_span (fun cursor =>
      (cursor.rest.takeWhile Char.isDigit, cursor.rest.dropWhile Char.isDigit)) (c :: others)
    ('/' :: transport.keyword.toList ++ rest)
    (by rintro d ⟨rfl⟩; exact isAsciiSpace_of_isDigit digit) (fun _ => by rw [taken, left])
  intro seen
  have regrouped : ' ' :: (c :: others ++ '/' :: transport.keyword.toList) ++ rest =
      ' ' :: (c :: others) ++ ('/' :: transport.keyword.toList ++ rest) := by simp
  rw [endpoint, regrouped, bind_of_eq_ok (spanned seen)]
  simp only [List.isEmpty_cons, Bool.false_eq_true, if_false, read]
  rw [get_bind]
  simp only [List.cons_append]
  rw [set_bind]
  simp only [Cursor.past, find?_keyword]
  rw [bind_of_eq_ok (takes_keyword transport rest _)]
  simp only [List.reverse_cons, List.reverse_append, List.append_assoc]
  rfl

/-- A port is taken if no dash follows it. -/
theorem takes_ports {port : Port} {rest : List Char} (bounded : port.number ≤ Port.maxNumber)
    (single : Lacks "-" rest) : Takes ports (' ' :: port.text.toList) rest [port] := by
  have taken : Takes endpoints (' ' :: port.text.toList) rest
      [⟨port.number, some port.transport⟩] := by
    rw [← List.append_nil (' ' :: port.text.toList)]
    exact (takes_endpoint bounded _).bind
      (.loop_done ((takes_accept_of_lacks single).before (.pure _ _)))
  intro seen
  rw [ports, bind_of_eq_ok (taken seen)]
  rfl

/-! ## Expressions -/

/-- An argument starts with a visible character that ends none. -/
theorem IsArgument.exists_cons {text : List Char} (isArgument : IsArgument text) :
    ∃ c others, text = c :: others ∧ isAsciiSpace c = false ∧ c ≠ ')' := by
  rcases text with _ | ⟨c, others⟩
  · exact absurd rfl isArgument.notNil
  refine ⟨c, others, rfl, ?_, ?_⟩
  · have visible := isSpace_head?_trim (c :: others)
    rw [isArgument.trimmed] at visible
    rw [Bool.eq_false_iff]
    intro blank
    have isVisible := visible c rfl
    rw [isSpace_of_isAsciiSpace blank] at isVisible
    cases isVisible
  · rintro rfl
    cases isArgument.balanced

/-- An argument is taken up to the comma or the parenthesis behind it. -/
theorem takes_expr {blanks rest : List Char} {c : Char} {text : String}
    (blank : blanks.all isAsciiSpace = true) (isArgument : IsArgument text.toList)
    (ends : c = ')' ∨ c = ',') : Takes expr (blanks ++ text.toList) (c :: rest) text := by
  rcases isArgument.exists_cons with ⟨d, others, isText, visible, _⟩
  have isWhole : String.ofList text.toList = text := String.ofList_toList
  have cut := @cutExpr_of_isBalanced text.toList rest c isArgument.balanced ends
  have trimmed := isArgument.trimmed
  rw [isText] at cut trimmed isWhole ⊢
  intro seen
  have skipped : spaces ⟨seen, blanks ++ (d :: others ++ c :: rest)⟩ =
      .ok ⟨⟩ ⟨blanks.reverse ++ seen, d :: others ++ c :: rest⟩ :=
    congrArg (EStateM.Result.ok PUnit.unit)
      (@skipSpaces_of_blanks blanks (d :: others ++ c :: rest) blank
        (by rintro e ⟨rfl⟩; exact visible) seen)
  rw [expr, List.append_assoc, bind_of_eq_ok skipped, get_bind]
  simp only [cut]
  rw [set_bind, trimmed, Cursor.past, List.reverse_append, List.append_assoc]
  exact congrArg (fun value => EStateM.Result.ok value _) isWhole

end AnalyzerGlue.Evt.Reader
