import AnalyzerGlue.Proofs.Evt.ByteCursor
import AnalyzerGlue.Proofs.Evt.Steps
import AnalyzerGlue.Proofs.Evt.Words

/-!
# Readers of bytes and readers of characters

A reader of bytes mirrors a reader of characters: from the same place of a text both return
the same value or find the same error, and both stop at the same place, which is between two
characters.  Programs that are put together from such readers in the same way mirror each
other too.  Here this is shown of white space, tokens, words, numbers and ports, all of which
begin and end beside ASCII characters.
-/

namespace AnalyzerGlue.Evt

open AnalyzerGlue.Text

/-! ## Places in a text -/

namespace Cursor

/-- The text that the place is in. -/
def text (cursor : Cursor) : List Char :=
  cursor.seen.reverse ++ cursor.rest

/-- The number of bytes before the place. -/
def offset (cursor : Cursor) : Nat :=
  byteLength cursor.seen.reverse

variable {cursor moved : Cursor} {taken rest : List Char}

theorem text_past (isRest : cursor.rest = taken ++ rest) :
    (cursor.past taken rest).text = cursor.text := by
  simp [text, past, isRest]

theorem offset_past : (cursor.past taken rest).offset = cursor.offset + byteLength taken := by
  simp [offset, past, byteLength_append]

theorem rest_eq_of_skipSpaces :
    cursor.rest = cursor.rest.takeWhile isAsciiSpace ++ cursor.rest.dropWhile isAsciiSpace :=
  List.takeWhile_append_dropWhile.symm

theorem text_after? {token : String} (follows : cursor.after? token = some moved) :
    moved.text = cursor.text := by
  rw [after?] at follows
  rcases Option.map_eq_some_iff.mp follows with ⟨rest, isStart, rfl⟩
  rw [text_past (dropStart?_eq_some_iff.mp isStart), skipSpaces, text_past rest_eq_of_skipSpaces]

end Cursor

/-- The place of a cursor in the text is the place of a byte cursor, and the byte cursor has
been asked for slices only that can be taken. -/
structure At (text : String) (cursor : Cursor) (place : ByteCursor) : Prop where
  sameText : place.text = text
  isText : text.toList = cursor.text
  sameOffset : place.offset = cursor.offset
  slices : ∀ slice ∈ place.slices, IsSlice text slice.1 slice.2

namespace At

variable {text : String} {cursor moved : Cursor} {place : ByteCursor}

theorem start (text : String) : At text (Cursor.start text.toList) (ByteCursor.start text) where
  sameText := rfl
  isText := rfl
  sameOffset := byteLength_nil.symm
  slices := fun _ member => absurd member List.not_mem_nil

theorem isValid (isAt : At text cursor place) :
    (String.Pos.Raw.mk place.offset).IsValid text := by
  rw [isAt.sameOffset]
  exact isValid_byteLength isAt.isText

theorem move (isAt : At text cursor place) (same : moved.text = cursor.text) :
    At text moved { place with offset := moved.offset } where
  sameText := isAt.sameText
  isText := isAt.isText.trans same.symm
  sameOffset := rfl
  slices := isAt.slices

theorem note (isAt : At text cursor place) {first last : Nat} (isSlice : IsSlice text first last) :
    At text cursor { place with slices := place.slices ++ [(first, last)] } where
  sameText := isAt.sameText
  isText := isAt.isText
  sameOffset := isAt.sameOffset
  slices := by
    intro slice member
    rcases List.mem_append.mp member with member | member
    · exact isAt.slices slice member
    · rw [List.mem_singleton.mp member]
      exact isSlice

/-- The bytes behind the place are those of the characters behind it. -/
theorem left_eq (isAt : At text cursor place) : place.left = byteLength cursor.rest := by
  rw [ByteCursor.left, isAt.sameText, isAt.sameOffset, ← byteLength_toList, isAt.isText,
    Cursor.text, byteLength_append, Cursor.offset, Nat.add_sub_cancel_left]

theorem pastClass_eq (isAt : At text cursor place) {belongs : Char → Bool}
    (isClass : IsAsciiClass belongs) :
    pastClass text belongs cursor.offset =
      cursor.offset + byteLength (cursor.rest.takeWhile belongs) :=
  Text.pastClass_eq isClass isAt.isText

theorem pastSpaces_eq (isAt : At text cursor place) :
    place.pastSpaces = cursor.skipSpaces.offset := by
  rw [ByteCursor.pastSpaces, isAt.sameText, isAt.sameOffset,
    isAt.pastClass_eq isAsciiClass_isAsciiSpace, Cursor.skipSpaces, Cursor.offset_past]

end At

/-! ## Readers that do the same -/

/-- Both readers return the same value at the same place, or find the same error there. -/
inductive SameOutcome (text : String) {α : Type} :
    EStateM.Result EvtError Cursor α → EStateM.Result ByteFailure ByteCursor α → Prop where
  | ok (value : α) {moved : Cursor} {place : ByteCursor} (isAt : At text moved place) :
      SameOutcome text (.ok value moved) (.ok value place)
  | error (error : EvtError) {moved : Cursor} {place : ByteCursor} (isAt : At text moved place) :
      SameOutcome text (.error error moved) (.error (.refused error) place)

/-- From the same place, a reader of bytes does what a reader does. -/
def Mirrors {α : Type} (bytes : ByteReader α) (reader : Reader α) : Prop :=
  ∀ ⦃text cursor place⦄, At text cursor place → SameOutcome text (reader cursor) (bytes place)

section

variable {α β : Type} {text : String} {cursor moved : Cursor} {place there : ByteCursor}

theorem ByteReader.bind_of_eq_ok {first : ByteReader α} {second : α → ByteReader β} {value : α}
    (read : first place = .ok value there) : (first >>= second) place = second value there := by
  simp [bind, EStateM.bind, read]

theorem ByteReader.get_bind (next : ByteCursor → ByteReader β) :
    (get >>= next) place = next place place :=
  rfl

theorem ByteReader.moveTo_bind (offset : Nat) (next : Unit → ByteReader β) :
    (moveTo offset >>= next) place = next ⟨⟩ { place with offset := offset } :=
  rfl

/-- No slice has split a character then. -/
theorem SameOutcome.ne_splits {outcome : EStateM.Result EvtError Cursor α}
    {outcome' : EStateM.Result ByteFailure ByteCursor α} (same : SameOutcome text outcome outcome')
    (first last : Nat) (left : ByteCursor) : outcome' ≠ .error (.splits first last) left := by
  rintro rfl
  cases same

theorem Mirrors.exists_of_ok {reader : Reader α} {bytes : ByteReader α}
    (mirrors : Mirrors bytes reader) (isAt : At text cursor place) {value : α}
    (read : reader cursor = .ok value moved) :
    ∃ there, bytes place = .ok value there ∧ At text moved there := by
  have same := mirrors isAt
  rw [read] at same
  generalize bytes place = outcome at same
  cases same with
  | ok value isAt' => exact ⟨_, rfl, isAt'⟩

theorem Mirrors.exists_of_error {reader : Reader α} {bytes : ByteReader α}
    (mirrors : Mirrors bytes reader) (isAt : At text cursor place) {error : EvtError}
    (read : reader cursor = .error error moved) :
    ∃ there, bytes place = .error (.refused error) there ∧ At text moved there := by
  have same := mirrors isAt
  rw [read] at same
  generalize bytes place = outcome at same
  cases same with
  | error error isAt' => exact ⟨_, rfl, isAt'⟩

theorem Mirrors.bind {first : Reader α} {second : α → Reader β} {bytes : ByteReader α}
    {next : α → ByteReader β} (same : Mirrors bytes first)
    (goesOn : ∀ value, Mirrors (next value) (second value)) :
    Mirrors (bytes >>= next) (first >>= second) := by
  intro text cursor place isAt
  have sameFirst := same isAt
  show SameOutcome text (EStateM.bind first second cursor) (EStateM.bind bytes next place)
  unfold EStateM.bind
  generalize first cursor = outcome at sameFirst
  generalize bytes place = outcome' at sameFirst
  cases sameFirst with
  | ok value isAt' => exact goesOn value isAt'
  | error error isAt' => exact .error error isAt'

theorem Mirrors.pure (value : α) : Mirrors (Pure.pure value) (Pure.pure value) :=
  fun _ _ _ isAt => .ok value isAt

theorem Mirrors.refuse (error : EvtError) :
    Mirrors (ByteReader.refuse error : ByteReader α) (throw error) :=
  fun _ _ _ isAt => .error error isAt

/-- Loops do the same if their rounds do: a round moves one cursor if it moves the other. -/
theorem Mirrors.loop {round : α → Reader (Reader.Round α)}
    {bytes : α → ByteReader (Reader.Round α)}
    (rounds : ∀ state, Mirrors (bytes state) (round state))
    (state : α) : Mirrors (ByteReader.loop bytes state) (Reader.loop round state) := by
  intro text cursor place isAt
  -- The loops measure what is left in different units.  Of two ends of one text the same is
  -- the shorter one in both.
  have isEnd : ∀ {cursor place}, At text cursor place → cursor.rest <:+ text.toList :=
    fun {cursor _} isAt => ⟨cursor.seen.reverse, isAt.isText.symm⟩
  fun_induction Reader.loop round state cursor generalizing place with
  | case1 state cursor error moved read =>
      rcases (rounds state).exists_of_error isAt read with ⟨there, isThere, isAt'⟩
      rw [ByteReader.loop, isThere]
      exact .error error isAt'
  | case2 state cursor final moved read =>
      rcases (rounds state).exists_of_ok isAt read with ⟨there, isThere, isAt'⟩
      rw [ByteReader.loop, isThere]
      exact .ok final isAt'
  | case3 state cursor next moved read further ih =>
      rcases (rounds state).exists_of_ok isAt read with ⟨there, isThere, isAt'⟩
      have moves : there.left < place.left := by
        rwa [isAt.left_eq, isAt'.left_eq, byteLength_lt_iff (isEnd isAt') (isEnd isAt)]
      rw [ByteReader.loop, isThere]
      simp only [if_pos moves]
      exact ih isAt'
  | case4 state cursor next moved read stays =>
      rcases (rounds state).exists_of_ok isAt read with ⟨there, isThere, isAt'⟩
      have stays' : ¬ there.left < place.left := by
        rwa [isAt.left_eq, isAt'.left_eq, byteLength_lt_iff (isEnd isAt') (isEnd isAt)]
      rw [ByteReader.loop, isThere]
      simp only [if_neg stays']
      exact .ok next isAt'

end

/-! ## Slices and tokens -/

namespace ByteReader

open Reader (isIdChar)

variable {text : String} {cursor moved : Cursor} {place : ByteCursor}

theorem slice_of_isSlice {first last : Nat} (isSlice : IsSlice place.text first last) :
    slice first last place =
      .ok (Text.slice isSlice).toList { place with slices := place.slices ++ [(first, last)] } :=
  dif_pos isSlice

/-- A slice of what is behind some place can be taken, wherever the cursor is by now. -/
theorem exists_slice_eq (isAt : At text moved place) (same : moved.text = cursor.text)
    {taken rest : List Char} (isRest : cursor.rest = taken ++ rest) :
    ∃ there, slice cursor.offset (cursor.offset + byteLength taken) place = .ok taken there ∧
      At text moved there := by
  have isText : text.toList = cursor.seen.reverse ++ (taken ++ rest) := by
    rw [isAt.isText, same, Cursor.text, isRest]
  have isSlice : IsSlice text cursor.offset (cursor.offset + byteLength taken) :=
    isSlice_of_append isText
  have isTaken : (Text.slice isSlice).toList = taken := toList_slice isText isSlice
  refine ⟨_, ?_, isAt.note isSlice⟩
  cases isAt.sameText
  rw [slice_of_isSlice isSlice, isTaken]

/-- So can the rest of the text. -/
theorem exists_slice_rest_eq (isAt : At text moved place) (same : moved.text = cursor.text) :
    ∃ there, slice cursor.offset place.text.utf8ByteSize place = .ok cursor.rest there ∧
      At text moved there := by
  have isEnd : place.text.utf8ByteSize = cursor.offset + byteLength cursor.rest := by
    rw [isAt.sameText, ← byteLength_toList, isAt.isText, same, Cursor.text, byteLength_append]
    rfl
  rw [isEnd]
  exact exists_slice_eq isAt same (List.append_nil _).symm

theorem mirrors_rest : Mirrors rest (do return (← get).rest) := by
  intro text cursor place isAt
  rcases exists_slice_rest_eq isAt rfl with ⟨there, isThere, isAt'⟩
  have read : rest place = .ok cursor.rest there := by
    rw [← isThere, ← isAt.sameOffset]
    rfl
  rw [read]
  exact .ok _ isAt'

theorem mirrors_spaces : Mirrors spaces Reader.spaces := by
  intro text cursor place isAt
  have isMoved : spaces place = .ok ⟨⟩ { place with offset := cursor.skipSpaces.offset } := by
    rw [← isAt.pastSpaces_eq]
    rfl
  rw [isMoved]
  exact .ok _ (isAt.move (Cursor.text_past Cursor.rest_eq_of_skipSpaces))

/-- The offset behind a token is that of the place behind it. -/
theorem exists_after?_eq (isAt : At text cursor place) (token : String) :
    ∃ there, after? token place = .ok ((cursor.after? token).map Cursor.offset) there ∧
      At text cursor there := by
  have sameText : cursor.text = cursor.skipSpaces.text :=
    (Cursor.text_past Cursor.rest_eq_of_skipSpaces).symm
  rcases exists_slice_rest_eq isAt sameText with ⟨there, isThere, isAt'⟩
  refine ⟨there, ?_, isAt'⟩
  have read : after? token place = .ok
      (if (dropStart? token.toList cursor.skipSpaces.rest).isSome then
        some (cursor.skipSpaces.offset + token.utf8ByteSize) else none) there := by
    rw [← isAt.pastSpaces_eq] at isThere ⊢
    exact bind_of_eq_ok isThere
  rw [read, Cursor.after?]
  cases dropStart? token.toList cursor.skipSpaces.rest with
  | none => rfl
  | some rest =>
      rw [Option.map_some, Option.map_some, Cursor.offset_past, byteLength_toList]
      rfl

theorem mirrors_after? (token : String) :
    Mirrors (after? token) (do return ((← get).after? token).map Cursor.offset) := by
  intro text cursor place isAt
  rcases exists_after?_eq isAt token with ⟨there, isThere, isAt'⟩
  rw [isThere]
  exact .ok _ isAt'

theorem mirrors_expect (token : String) : Mirrors (expect token) (Reader.expect token) := by
  intro text cursor place isAt
  rcases exists_after?_eq isAt token with ⟨there, isThere, isAt'⟩
  rw [expect, bind_of_eq_ok isThere, Reader.expect, Reader.get_bind]
  cases follows : cursor.after? token with
  | none => exact .error _ isAt'
  | some moved => exact .ok _ (isAt'.move (Cursor.text_after? follows))

theorem mirrors_accept (token : String) : Mirrors (accept token) (Reader.accept token) := by
  intro text cursor place isAt
  rcases exists_after?_eq isAt token with ⟨there, isThere, isAt'⟩
  rw [accept, bind_of_eq_ok isThere, Reader.accept, Reader.get_bind]
  cases follows : cursor.after? token with
  | none => exact .ok _ isAt'
  | some moved => exact .ok _ (isAt'.move (Cursor.text_after? follows))

/-! ## Words -/

/-- Readers take the same if the bytes that belong are those of the part that is cut off. -/
theorem mirrors_span {belongs : String → Nat → Bool} {cut : Cursor → List Char × List Char}
    (isCut : ∀ {text : String} {cursor : Cursor}, text.toList = cursor.text →
      cursor.rest = (cut cursor).1 ++ (cut cursor).2 ∧
        pastWhile text (belongs text) cursor.offset =
          cursor.offset + byteLength (cut cursor).1) :
    Mirrors (span belongs) (Reader.span cut) := by
  refine mirrors_spaces.bind fun _ text cursor place isAt => ?_
  rcases isCut isAt.isText with ⟨isRest, isPast⟩
  have sameText := Cursor.text_past isRest
  rcases exists_slice_eq (isAt.move sameText) sameText isRest with ⟨there, isThere, isAt'⟩
  rw [Cursor.offset_past, ← isPast, ← isAt.sameOffset, ← isAt.sameText] at isThere
  change SameOutcome text (.ok (cut cursor).1 (cursor.past (cut cursor).1 (cut cursor).2))
    (slice place.offset (pastWhile place.text (belongs place.text) place.offset)
      { place with offset := _ })
  rw [isThere]
  exact .ok _ isAt'

theorem mirrors_spanClass {belongs : Char → Bool} (isClass : IsAsciiClass belongs) :
    Mirrors (spanClass belongs)
      (Reader.span fun cursor =>
        (cursor.rest.takeWhile belongs, cursor.rest.dropWhile belongs)) := by
  refine mirrors_span fun {text cursor} isText => ⟨List.takeWhile_append_dropWhile.symm, ?_⟩
  exact Text.pastClass_eq isClass isText

/-- Ids are made of ASCII characters. -/
theorem isAscii_of_isIdChar {before behind : Option Char} {c : Char}
    (belongs : isIdChar before c behind = true) : isAscii c = true := by
  have isPart := Reader.isIdPart_of_isIdChar belongs
  simp only [Reader.isIdPart, Bool.or_eq_true, beq_iff_eq] at isPart
  rcases isPart with (((alphanum | rfl) | rfl) | rfl) | rfl
  · simp only [Char.isAlphanum, Bool.or_eq_true, isAlpha_iff_toNat, isDigit_iff_toNat] at alphanum
    simp only [isAscii, decide_eq_true_eq]
    omega
  all_goals decide

/-- What a byte has beside it is told like what its character has beside it. -/
theorem isIdByte_eq {text : String} {before rest : List Char} {c : Char}
    (isText : text.toList = before ++ c :: rest) :
    isIdByte text (byteLength before) = isIdChar before.getLast? c rest.head? := by
  rcases exists_byte?_of_append isText c.utf8Size_pos with ⟨byte, member, isByte⟩
  rw [Nat.add_zero] at isByte
  rw [isIdByte, isByte, Option.any_some]
  cases ascii : isAscii c with
  | true =>
      rw [encoded_of_isAscii ascii, List.mem_singleton] at member
      have behind : byteLength before + 1 = byteLength (before ++ [c]) := by
        rw [byteLength_append, byteLength_cons, byteLength_nil, utf8Size_of_isAscii ascii]
      have isText' : text.toList = (before ++ [c]) ++ rest := by rw [isText, List.append_cons]
      rw [member, behind]
      -- Of its neighbours only this counts, whether they are colons, and a colon is a byte.
      refine Reader.isIdChar_congr c ?_ ?_
      · rcases List.eq_nil_or_concat before with rfl | ⟨front, d, rfl⟩
        · rw [byteLength_nil]
          rfl
        · rw [List.concat_eq_append, List.append_assoc, List.singleton_append] at isText
          have notZero : ¬ byteLength (front ++ [d]) = 0 := by simp [byteLength_eq_zero_iff]
          rw [List.concat_eq_append, if_neg notZero, Bool.eq_iff_iff, beq_iff_eq, beq_iff_eq,
            byte?_eq_some_iff_getLast? (by decide) isText]
          simp
      · rw [Bool.eq_iff_iff, beq_iff_eq, beq_iff_eq,
          byte?_eq_some_iff_head? (by decide) isText']
  | false =>
      have excluded : ∀ {d before behind}, isAscii d = false →
          isIdChar before d behind = false := by
        intro d before behind noAscii
        rw [Bool.eq_false_iff]
        intro belongs
        rw [isAscii_of_isIdChar belongs] at noAscii
        cases noAscii
      rw [excluded (isAscii_of_mem_encoded ascii byte member), excluded ascii]

theorem pastWhile_isIdByte_eq {text : String} {before rest : List Char}
    (isText : text.toList = before ++ rest) :
    pastWhile text (isIdByte text) (byteLength before) =
      byteLength before + byteLength (Reader.cutId before.getLast? rest).1 := by
  induction rest generalizing before with
  | nil =>
      rw [Reader.cutId, byteLength_nil, Nat.add_zero]
      exact pastWhile_of_end (Nat.le_of_eq (byteLength_of_append_nil isText).symm)
  | cons c rest ih =>
      have isByte := isIdByte_eq isText
      rw [Reader.cutId]
      cases belongs : isIdChar before.getLast? c rest.head? with
      | true =>
          rw [belongs] at isByte
          have isText' : text.toList = (before ++ [c]) ++ rest := by rw [isText, List.append_cons]
          have goesOn := ih isText'
          have inside : byteLength before < text.utf8ByteSize := by
            rw [← byteLength_toList, isText, byteLength_append, byteLength_cons]
            have pos := c.utf8Size_pos
            omega
          rw [byteLength_append, byteLength_cons, byteLength_nil,
            utf8Size_of_isAscii (isAscii_of_isIdChar belongs), List.getLast?_append] at goesOn
          rw [pastWhile, if_pos ⟨inside, isByte⟩, if_pos rfl, goesOn, byteLength_cons,
            utf8Size_of_isAscii (isAscii_of_isIdChar belongs), Nat.add_assoc]
          rfl
      | false =>
          rw [belongs] at isByte
          rw [pastWhile_of_not isByte]
          simp [byteLength_nil]

theorem mirrors_ident : Mirrors ident Reader.ident := by
  refine .bind (mirrors_span fun {text cursor} isText => ⟨?_, ?_⟩) fun taken => ?_
  · exact (Reader.cutId_of_cutId rfl).1
  · rw [← List.getLast?_reverse]
    exact pastWhile_isIdByte_eq isText
  · cases taken with
    | nil => exact .refuse _
    | cons c taken => exact .pure _

theorem mirrors_wordUpTo {ends : Char → Bool} (isClass : IsAsciiClass ends) :
    Mirrors (wordUpTo ends) (Reader.wordUpTo ends) := by
  refine .bind (mirrors_spanClass (isAsciiClass_isAsciiSpace.not.and isClass.not)) fun taken => ?_
  cases taken with
  | nil => exact .refuse _
  | cons c taken => exact .pure _

theorem mirrors_path : Mirrors path Reader.path :=
  mirrors_wordUpTo (isAsciiClass_beq (by decide))

theorem mirrors_mimeType : Mirrors mimeType Reader.mimeType :=
  mirrors_wordUpTo ((isAsciiClass_beq (by decide)).or (isAsciiClass_beq (by decide)))

/-! ## Numbers and ports -/

theorem cutSign_append (text : List Char) :
    text = (Reader.cutSign text).1 ++ (Reader.cutSign text).2 := by
  unfold Reader.cutSign
  split <;> rfl

theorem pastSign_eq {before rest : List Char} (isText : text.toList = before ++ rest) :
    pastSign text (byteLength before) =
      byteLength before + byteLength (Reader.cutSign rest).1 := by
  have isMinus := byte?_eq_some_iff_head? (d := '-') (by decide) isText
  have isPlus := byte?_eq_some_iff_head? (d := '+') (by decide) isText
  rw [pastSign]
  fun_cases Reader.cutSign rest with
  | case1 => rw [if_pos (.inl (isMinus.mpr rfl)), byteLength_cons, byteLength_nil]; rfl
  | case2 => rw [if_pos (.inr (isPlus.mpr rfl)), byteLength_cons, byteLength_nil]; rfl
  | case3 rest noMinus noPlus =>
      rw [if_neg, byteLength_nil, Nat.add_zero]
      rw [isMinus, isPlus]
      rintro (isHead | isHead)
      · rcases List.head?_eq_some_iff.mp isHead with ⟨others, isRest⟩
        exact noMinus others isRest
      · rcases List.head?_eq_some_iff.mp isHead with ⟨others, isRest⟩
        exact noPlus others isRest

theorem mirrors_integer : Mirrors integer Reader.integer := by
  refine mirrors_spaces.bind fun _ text cursor place isAt => ?_
  rcases isSign : Reader.cutSign cursor.rest with ⟨sign, left⟩
  have isLeft : cursor.rest = sign ++ left := by
    have isCut := cutSign_append cursor.rest
    rwa [isSign] at isCut
  have isRest : cursor.rest =
      sign ++ left.takeWhile Char.isDigit ++ left.dropWhile Char.isDigit := by
    rw [isLeft, List.append_assoc, List.takeWhile_append_dropWhile]
  have isText : text.toList = (cursor.seen.reverse ++ sign) ++ left := by
    rw [isAt.isText, Cursor.text, isLeft, List.append_assoc]
  have isFirst : pastSign text cursor.offset = cursor.offset + byteLength sign := by
    have isPast := pastSign_eq isAt.isText
    rwa [isSign] at isPast
  have isLast : pastClass text Char.isDigit (cursor.offset + byteLength sign) =
      cursor.offset + byteLength sign + byteLength (left.takeWhile Char.isDigit) := by
    have isPast := Text.pastClass_eq isAsciiClass_isDigit isText
    rwa [byteLength_append] at isPast
  rw [Reader.get_bind, get_bind]
  simp only [isSign, isAt.sameText, isAt.sameOffset, isFirst, isLast]
  generalize left.takeWhile Char.isDigit = digits at isRest
  by_cases none : digits = []
  · rw [if_pos (by simp [none]), if_pos (by simp [none, byteLength_nil])]
    exact .error _ isAt
  · have some : ¬ cursor.offset + byteLength sign + byteLength digits =
        cursor.offset + byteLength sign := by
      rw [Nat.add_eq_left, byteLength_eq_zero_iff]
      exact none
    have isEnd : (cursor.past (sign ++ digits) (left.dropWhile Char.isDigit)).offset =
        cursor.offset + byteLength sign + byteLength digits := by
      rw [Cursor.offset_past, byteLength_append, Nat.add_assoc]
    rcases exists_slice_eq isAt rfl isRest with ⟨there, isThere, isAt'⟩
    rw [byteLength_append, ← Nat.add_assoc] at isThere
    rw [if_neg (by simpa using none), if_neg some, bind_of_eq_ok isThere, Reader.set_bind,
      moveTo_bind, ← isEnd]
    have isMoved := isAt'.move (Cursor.text_past isRest)
    cases readSigned? (sign ++ digits) with
    | none => exact .error _ isMoved
    | some value => exact .ok _ isMoved

/-- The first keyword that follows is found. -/
theorem exists_findM?_eq (isAt : At text cursor place) (transports : List Transport) :
    ∃ there,
      (transports.findM? fun transport : Transport => do
          return (← after? transport.keyword).isSome) place =
          .ok (transports.find? fun transport => cursor.at? transport.keyword) there ∧
        At text cursor there := by
  induction transports generalizing place with
  | nil => exact ⟨place, rfl, isAt⟩
  | cons transport others ih =>
      rcases exists_after?_eq isAt transport.keyword with ⟨there, isThere, isAt'⟩
      have sees : (do return (← after? transport.keyword).isSome : ByteReader Bool) place =
          .ok (cursor.at? transport.keyword) there := by
        rw [bind_of_eq_ok isThere, Option.isSome_map]
        rfl
      rw [List.findM?, bind_of_eq_ok sees, List.find?_cons]
      cases cursor.at? transport.keyword with
      | true => exact ⟨there, rfl, isAt'⟩
      | false => exact ih isAt'

theorem mirrors_endpoint : Mirrors endpoint Reader.endpoint := by
  refine .bind (mirrors_spanClass isAsciiClass_isDigit) fun digits => ?_
  cases digits with
  | nil => exact .refuse _
  | cons c digits =>
      simp only [List.isEmpty_cons, Bool.false_eq_true, if_false]
      cases (readNat? 10 (c :: digits)).filter (· ≤ Port.maxNumber) with
      | none => exact .refuse _
      | some number =>
          dsimp only
          intro text cursor place isAt
          have isSlash : byte? text cursor.offset = some '/' ↔ cursor.rest.head? = some '/' :=
            byte?_eq_some_iff_head? (by decide) isAt.isText
          rw [Reader.get_bind, get_bind]
          simp only [isAt.sameText, isAt.sameOffset]
          by_cases slash : byte? text cursor.offset = some '/'
          · rcases List.head?_eq_some_iff.mp (isSlash.mp slash) with ⟨others, isRest⟩
            have isMoved := isAt.move (@Cursor.text_past cursor ['/'] others isRest)
            rcases exists_findM?_eq isMoved Transport.all with ⟨there, isThere, isAt'⟩
            have isBehind : (cursor.past ['/'] others).offset = cursor.offset + 1 :=
              Cursor.offset_past
            rw [isBehind] at isThere
            simp only [isRest, if_pos slash]
            rw [Reader.set_bind, moveTo_bind, bind_of_eq_ok isThere]
            cases Transport.all.find? fun transport =>
                (cursor.past ['/'] others).at? transport.keyword with
            | none => exact .error _ isAt'
            | some transport =>
                exact (mirrors_expect transport.keyword).bind (fun _ => .pure _) isAt'
          · have noSlash : ∀ others, cursor.rest = '/' :: others → False := fun others isRest =>
              slash (isSlash.mpr (by rw [isRest]; rfl))
            simp only [if_neg slash]
            exact .ok _ isAt

theorem mirrors_endpoints : Mirrors endpoints Reader.endpoints := by
  refine .bind mirrors_endpoint fun first => .loop (fun taken => ?_) [first]
  refine .bind (mirrors_accept "-") fun accepted => ?_
  cases accepted with
  | true => exact .bind mirrors_endpoint fun next => .pure _
  | false => exact .pure _

theorem mirrors_ports : Mirrors ports Reader.ports := by
  refine .bind mirrors_endpoints fun taken => ?_
  cases Reader.portsOf taken with
  | error error => exact .refuse error
  | ok taken => exact .pure taken

end ByteReader

end AnalyzerGlue.Evt
