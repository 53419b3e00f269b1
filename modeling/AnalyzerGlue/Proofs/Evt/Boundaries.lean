import Mathlib.Control.Monad.Basic
import AnalyzerGlue.Proofs.Evt.Mirroring

/-!
# Boundaries of characters

No sequence of operations takes a byte cursor into the middle of a character, whether the
operations fail or not, and none of the slices that they take of the text splits one.

Expressions need an argument of their own, since behind a backslash in a string a byte is
skipped that can be the first one of several.  The other bytes of such a character are then
read as if they were characters in the string.  None of them is a quote or a backslash, so
the string goes on behind them as it does behind the character.
-/

namespace AnalyzerGlue.Evt

open AnalyzerGlue.Text

namespace ByteReader

variable {text : String}

/-! ## Expressions -/

/-- The offset behind an expression, from a place in one of its strings on. -/
def pastString (text : String) (level offset : Nat) : Except EvtError Nat :=
  match closingQuote? text offset with
  | none => .error .unterminatedString
  | some quote => pastExpr text level (quote + 1)

/-- The offset behind an expression, from a place inside of it on. -/
def pastFrom (text : String) : Reader.Inside → Nat → Nat → Except EvtError Nat
  | .code, level, offset => pastExpr text level offset
  | .string, level, offset => pastString text level offset
  | .escape, level, offset => pastString text level (offset + 1)

section

variable {level offset : Nat} {c : Char}

theorem pastExpr_of_byte? (isByte : byte? text offset = some c) :
    pastExpr text level offset =
      if c = '(' ∨ c = '[' ∨ c = '\x7b' then pastExpr text (level + 1) (offset + 1)
      else if level = 0 ∧ (c = ')' ∨ c = ',') then .ok offset
      else if c = ')' ∨ c = ']' ∨ c = '\x7d' then
        match level with
        | 0 => .error (.unbalanced c)
        | outer + 1 => pastExpr text outer (offset + 1)
      else if c = '"' then pastString text level (offset + 1)
      else pastExpr text level (offset + 1) := by
  conv => lhs; unfold pastExpr
  split
  · rename_i noByte
    rw [isByte] at noByte
    cases noByte
  · rename_i d isByte'
    cases isByte.symm.trans isByte'
    refine ite_congr rfl (fun _ => rfl) fun _ => ?_
    refine ite_congr rfl (fun _ => rfl) fun _ => ?_
    refine ite_congr rfl (fun _ => rfl) fun _ => ?_
    refine ite_congr rfl (fun _ => ?_) fun _ => rfl
    rw [pastString]
    cases closingQuote? text (offset + 1) <;> rfl

theorem pastString_of_byte? (isByte : byte? text offset = some c) :
    pastString text level offset =
      if c = '\\' then pastString text level (offset + 2)
      else if c = '"' then pastExpr text level (offset + 1)
      else pastString text level (offset + 1) := by
  rw [pastString, closingQuote?, dif_pos (lt_of_byte?_eq_some isByte), isByte]
  simp only [Option.some_inj]
  by_cases isEscape : c = '\\'
  · simp only [if_pos isEscape]
    rfl
  by_cases isQuote : c = '"'
  · simp only [if_neg isEscape, if_pos isQuote]
  · simp only [if_neg isEscape, if_neg isQuote]
    rfl

/-- A byte leads where a character leads. -/
theorem pastFrom_of_byte? {inside : Reader.Inside} (isByte : byte? text offset = some c) :
    pastFrom text inside level offset =
      match Reader.step? (inside, level) c with
      | some next => pastFrom text next.1 next.2 (offset + 1)
      | none => if c = ')' ∨ c = ',' then .ok offset else .error (.unbalanced c) := by
  cases inside with
  | escape => rfl
  | string =>
      rw [pastFrom, pastString_of_byte? isByte, Reader.step?]
      by_cases isEscape : c = '\\'
      · simp only [if_pos isEscape]
        rfl
      by_cases isQuote : c = '"'
      · simp only [if_neg isEscape, if_pos isQuote]
        rfl
      · simp only [if_neg isEscape, if_neg isQuote]
        rfl
  | code =>
      rw [pastFrom, pastExpr_of_byte? isByte]
      by_cases opens : c = '(' ∨ c = '[' ∨ c = '\x7b'
      · simp only [Reader.step?, if_pos opens]
        rfl
      by_cases ends : level = 0 ∧ (c = ')' ∨ c = ',')
      · simp only [Reader.step?, if_neg opens, if_pos ends, if_pos ends.2]
      by_cases closes : c = ')' ∨ c = ']' ∨ c = '\x7d'
      · cases level with
        | zero =>
            have noEnd : ¬ (c = ')' ∨ c = ',') := fun isEnd => ends ⟨rfl, isEnd⟩
            simp [Reader.step?, opens, closes, noEnd]
        | succ outer => simp [Reader.step?, opens, closes, pastFrom]
      by_cases isQuote : c = '"'
      · simp only [Reader.step?, if_neg opens, if_neg ends, if_neg closes, if_pos isQuote]
        rfl
      · simp only [Reader.step?, if_neg opens, if_neg ends, if_neg closes, if_neg isQuote]
        rfl

/-- Behind the text an expression ends, unless a string is open. -/
theorem pastFrom_of_end {inside : Reader.Inside} (isEnd : text.utf8ByteSize ≤ offset) :
    pastFrom text inside level offset =
      match inside with
      | .code => .ok offset
      | _ => .error .unterminatedString := by
  have unclosed : ∀ {offset}, text.utf8ByteSize ≤ offset →
      pastString text level offset = .error .unterminatedString := by
    intro offset isEnd
    rw [pastString, closingQuote?, dif_neg (Nat.not_lt.mpr isEnd)]
  cases inside with
  | code =>
      rw [pastFrom, pastExpr]
      split
      · rfl
      · rename_i c isByte
        rw [byte?_eq_none_iff.mpr isEnd] at isByte
        cases isByte
  | string => exact unclosed isEnd
  | escape => exact unclosed (Nat.le_succ_of_le isEnd)

/-- Bytes that lead on are passed over. -/
theorem pastFrom_add {bytes : List Char} {inside : Reader.Inside} {next : Reader.Inside × Nat}
    (isBytes : ∀ index < bytes.length, byte? text (offset + index) = bytes[index]?)
    (leads : bytes.foldlM Reader.step? (inside, level) = some next) :
    pastFrom text inside level offset = pastFrom text next.1 next.2 (offset + bytes.length) := by
  induction bytes generalizing inside level offset with
  | nil =>
      cases leads
      rfl
  | cons byte bytes ih =>
      rw [List.foldlM_cons] at leads
      rcases Option.bind_eq_some_iff.mp leads with ⟨middle, steps, leadsOn⟩
      have isByte : byte? text offset = some byte := isBytes 0 (Nat.zero_lt_succ _)
      have isBytes' : ∀ index < bytes.length, byte? text (offset + 1 + index) = bytes[index]? := by
        intro index small
        rw [Nat.add_assoc, Nat.add_comm 1 index, isBytes (index + 1) (Nat.succ_lt_succ small),
          List.getElem?_cons_succ]
      rw [pastFrom_of_byte? isByte, steps]
      simp only [ih isBytes' leadsOn, List.length_cons, Nat.add_assoc, Nat.add_comm 1]

/-- Where a character beyond ASCII leads: out of an escape, and else nowhere. -/
def beyond : Reader.Inside → Reader.Inside
  | .code => .code
  | .string | .escape => .string

theorem step?_of_not_isAscii (noAscii : isAscii c = false) (inside : Reader.Inside) (level : Nat) :
    Reader.step? (inside, level) c = some (beyond inside, level) := by
  have differs : ∀ d, isAscii d = true → c ≠ d := by
    rintro d ascii rfl
    rw [ascii] at noAscii
    cases noAscii
  cases inside with
  | escape => rfl
  | string =>
      rw [Reader.step?, if_neg (differs _ (by decide)), if_neg (differs _ (by decide))]
      rfl
  | code => simp [Reader.step?, differs, isAscii, beyond]

/-- All bytes of a character together lead where it leads: behind an escape the first of
them does, and the others go on in the string. -/
theorem foldlM_step?_encoded (c : Char) (state : Reader.Inside × Nat) :
    (encoded c).foldlM Reader.step? state = Reader.step? state c := by
  cases ascii : isAscii c with
  | true =>
      rw [encoded_of_isAscii ascii, List.foldlM_cons]
      cases Reader.step? state c <;> rfl
  | false =>
      have stays : ∀ {bytes : List Char} {inside}, (∀ byte ∈ bytes, isAscii byte = false) →
          bytes.foldlM Reader.step? (beyond inside, state.2) = some (beyond inside, state.2) := by
        intro bytes inside noAscii
        induction bytes with
        | nil => rfl
        | cons byte bytes ih =>
            rw [List.forall_mem_cons] at noAscii
            rw [List.foldlM_cons, step?_of_not_isAscii noAscii.1]
            cases inside <;> exact ih noAscii.2
      have noAscii := isAscii_of_mem_encoded ascii
      rw [step?_of_not_isAscii ascii]
      cases isEncoded : encoded c with
      | nil =>
          have pos := c.utf8Size_pos
          rw [← length_encoded, isEncoded] at pos
          cases pos
      | cons byte bytes =>
          rw [isEncoded, List.forall_mem_cons] at noAscii
          rw [List.foldlM_cons, step?_of_not_isAscii noAscii.1]
          exact stays noAscii.2

/-- An expression has the same end in the bytes and in the characters of a text. -/
theorem pastFrom_eq {before rest : List Char} {inside : Reader.Inside}
    (isText : text.toList = before ++ rest) :
    pastFrom text inside level (byteLength before) =
      (Reader.cutExpr inside level rest).map fun cut => byteLength before + byteLength cut.1 := by
  induction rest generalizing before inside level with
  | nil =>
      rw [pastFrom_of_end (Nat.le_of_eq (byteLength_of_append_nil isText).symm)]
      cases inside <;> rfl
  | cons c rest ih =>
      rw [Reader.cutExpr_cons]
      cases leads : Reader.step? (inside, level) c with
      | some next =>
          have isText' : text.toList = (before ++ [c]) ++ rest := by rw [isText, List.append_cons]
          have isBytes : ∀ index < (encoded c).length,
              byte? text (byteLength before + index) = (encoded c)[index]? := fun index small =>
            byte?_of_append isText (by rwa [length_encoded] at small)
          have goesOn := @ih next.2 (before ++ [c]) next.1 isText'
          rw [byteLength_append, byteLength_cons, byteLength_nil, Nat.add_zero] at goesOn
          rw [← foldlM_step?_encoded] at leads
          rw [pastFrom_add isBytes leads, length_encoded, goesOn]
          dsimp only
          cases Reader.cutExpr next.1 next.2 rest with
          | error error => rfl
          | ok cut =>
              simp only [Reader.cutExpr.extend, Except.map, byteLength_cons, Nat.add_assoc]
      | none =>
          -- Characters beyond ASCII always lead on.
          have ascii : isAscii c = true := by
            cases ascii : isAscii c with
            | true => rfl
            | false => cases (step?_of_not_isAscii ascii inside level).symm.trans leads
          have isByte := byte?_of_append isText c.utf8Size_pos
          rw [encoded_of_isAscii ascii, Nat.add_zero] at isByte
          rw [pastFrom_of_byte? isByte, leads]
          dsimp only
          split <;> rfl

-- The backslash at 1 is passed over with the first byte of `é`, which is the one at 2.
example : pastFrom "\"\\é\"" .string 0 1 = .ok 5 := by decide +kernel

end

/-- An expression is cut off the start of the text. -/
theorem eq_append_of_cutExpr {inside : Reader.Inside} {level : Nat} {text taken left : List Char}
    (isCut : Reader.cutExpr inside level text = .ok (taken, left)) : text = taken ++ left := by
  induction text generalizing inside level taken with
  | nil =>
      cases inside with
      | code =>
          cases isCut
          rfl
      | string | escape => cases isCut
  | cons c rest ih =>
      rw [Reader.cutExpr_cons] at isCut
      split at isCut
      · rename_i next leads
        cases isCut' : Reader.cutExpr next.1 next.2 rest with
        | error error =>
            rw [isCut'] at isCut
            cases isCut
        | ok cut =>
            rw [isCut'] at isCut
            cases isCut
            exact congrArg (c :: ·) (ih isCut')
      · split at isCut <;> cases isCut
        rfl

theorem mirrors_expr : Mirrors expr Reader.expr := by
  refine mirrors_spaces.bind fun _ text cursor place isAt => ?_
  have isPast : pastFrom text .code 0 cursor.offset =
      (Reader.cutExpr .code 0 cursor.rest).map fun cut => cursor.offset + byteLength cut.1 :=
    pastFrom_eq isAt.isText
  rw [pastFrom] at isPast
  rw [Reader.get_bind, get_bind, isAt.sameText, isAt.sameOffset, isPast]
  cases isCut : Reader.cutExpr .code 0 cursor.rest with
  | error error => exact .error error isAt
  | ok cut =>
      rcases cut with ⟨taken, rest⟩
      have isRest := eq_append_of_cutExpr isCut
      rcases exists_slice_eq isAt rfl isRest with ⟨there, isThere, isAt'⟩
      have isMoved := isAt'.move (Cursor.text_past isRest)
      simp only [Except.map]
      rw [bind_of_eq_ok isThere, Reader.set_bind, moveTo_bind, ← Cursor.offset_past]
      cases trim taken with
      | nil => exact .error _ isMoved
      | cons c text => exact .ok _ isMoved

end ByteReader

/-! ## Operations -/

/-- What a cursor can be asked to do. -/
inductive Operation where
  | rest
  | spaces
  | lookingAt (token : String)
  | expect (token : String)
  | accept (token : String)
  | ident
  | path
  | mimeType
  | integer
  | ports
  | expr

namespace Operation

/-- What an operation returns if it does not fail. -/
def Answer : Operation → Type
  | rest => List Char
  | spaces | expect _ => Unit
  | lookingAt _ => Option Nat
  | accept _ => Bool
  | ident => QualName
  | path | mimeType | expr => String
  | integer => Int
  | ports => List Port

/-- An operation on the characters of a text.  Only an offset behind a token is told in
bytes. -/
def read : (operation : Operation) → Reader operation.Answer
  | rest => do return (← get).rest
  | spaces => Reader.spaces
  | lookingAt token => do return ((← get).after? token).map Cursor.offset
  | expect token => Reader.expect token
  | accept token => Reader.accept token
  | ident => Reader.ident
  | path => Reader.path
  | mimeType => Reader.mimeType
  | integer => Reader.integer
  | ports => Reader.ports
  | expr => Reader.expr

/-- An operation on the bytes of a text. -/
def readBytes : (operation : Operation) → ByteReader operation.Answer
  | rest => ByteReader.rest
  | spaces => ByteReader.spaces
  | lookingAt token => ByteReader.after? token
  | expect token => ByteReader.expect token
  | accept token => ByteReader.accept token
  | ident => ByteReader.ident
  | path => ByteReader.path
  | mimeType => ByteReader.mimeType
  | integer => ByteReader.integer
  | ports => ByteReader.ports
  | expr => ByteReader.expr

theorem mirrors (operation : Operation) : Mirrors operation.readBytes operation.read :=
  match operation with
  | rest => ByteReader.mirrors_rest
  | spaces => ByteReader.mirrors_spaces
  | lookingAt token => ByteReader.mirrors_after? token
  | expect token => ByteReader.mirrors_expect token
  | accept token => ByteReader.mirrors_accept token
  | ident => ByteReader.mirrors_ident
  | path => ByteReader.mirrors_path
  | mimeType => ByteReader.mirrors_mimeType
  | integer => ByteReader.mirrors_integer
  | ports => ByteReader.mirrors_ports
  | expr => ByteReader.mirrors_expr

end Operation

/-- The place behind operations, whether they fail or not. -/
def Cursor.behind (cursor : Cursor) : List Operation → Cursor
  | [] => cursor
  | operation :: operations =>
      match operation.read cursor with
      | .ok _ moved => moved.behind operations
      | .error _ left => left.behind operations

/-- The place behind operations on bytes, whether they fail or not. -/
def ByteCursor.behind (place : ByteCursor) : List Operation → ByteCursor
  | [] => place
  | operation :: operations =>
      match operation.readBytes place with
      | .ok _ moved => moved.behind operations
      | .error _ left => left.behind operations

/-- The same operations lead to the same place. -/
theorem At.behind {text : String} {cursor : Cursor} {place : ByteCursor}
    (isAt : At text cursor place) (operations : List Operation) :
    At text (cursor.behind operations) (place.behind operations) := by
  induction operations generalizing cursor place with
  | nil => exact isAt
  | cons operation operations ih =>
      have same := operation.mirrors isAt
      rw [Cursor.behind, ByteCursor.behind]
      generalize operation.read cursor = outcome at same ⊢
      generalize operation.readBytes place = outcome' at same ⊢
      cases same with
      | ok value isAt' => exact ih isAt'
      | error error isAt' => exact ih isAt'

/-- Behind any operations the byte cursor is inside of the text and on a boundary of
characters, and so are both ends of all slices that have been asked for on the way.  It is
where the cursor is that goes over the characters.  A further operation splits no character,
and returns the same value or finds the same error as the one on characters. -/
theorem ByteCursor.behind_operations (text : String) (operations : List Operation) :
    let place := (ByteCursor.start text).behind operations
    let cursor := (Cursor.start text.toList).behind operations
    place.offset ≤ text.utf8ByteSize ∧
    (String.Pos.Raw.mk place.offset).IsValid text ∧
    (∀ slice ∈ place.slices, slice.1 ≤ slice.2 ∧
      (String.Pos.Raw.mk slice.1).IsValid text ∧ (String.Pos.Raw.mk slice.2).IsValid text) ∧
    place.offset = cursor.offset ∧
    (∀ (operation : Operation) first last left,
      operation.readBytes place ≠ .error (.splits first last) left) ∧
    ∀ operation : Operation,
      SameOutcome text (operation.read cursor) (operation.readBytes place) := by
  intro place cursor
  have isAt : At text cursor place := (At.start text).behind operations
  have same : ∀ operation : Operation,
      SameOutcome text (operation.read cursor) (operation.readBytes place) :=
    fun operation => operation.mirrors isAt
  exact ⟨isAt.isValid.le_rawEndPos, isAt.isValid, isAt.slices, isAt.sameOffset,
    fun operation => (same operation).ne_splits, same⟩

/-- The cursor is behind a string in which the first byte of a longer character has been
skipped. -/
theorem ByteCursor.behind_operations_escape :
    let place := (ByteCursor.start "\"\\é\", x").behind [.expr]
    place.offset = 5 ∧ (String.Pos.Raw.mk 5).IsValid "\"\\é\", x" := by
  have isOffset : ((Cursor.start "\"\\é\", x".toList).behind [.expr]).offset = 5 := by
    decide +kernel
  have onBoundary := behind_operations "\"\\é\", x" [.expr]
  have isOffset' := onBoundary.2.2.2.1.trans isOffset
  refine ⟨isOffset', ?_⟩
  rw [← isOffset']
  exact onBoundary.2.1

end AnalyzerGlue.Evt
