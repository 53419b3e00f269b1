import AnalyzerGlue.Proofs.Text.Characters

/-!
# Texts as bytes

A text can be read byte by byte, with each byte taken for the character of its number.  An
ASCII character is one byte, itself; all bytes of the others are beyond ASCII.  So a loop
that tells ASCII characters only apart sees the same whether it goes over the bytes or over
the characters, and where it stops at an ASCII character or at the end of the text, it stops
between two characters.
-/

namespace AnalyzerGlue.Text

/-! ## Bytes of characters -/

/-- Whether a character is an ASCII one. -/
def isAscii (c : Char) : Bool :=
  c.toNat < 128

/-- The bytes of a character, each as the character of its number. -/
def encoded (c : Char) : List Char :=
  (String.utf8EncodeChar c).map Char.ofUInt8

theorem length_encoded (c : Char) : (encoded c).length = c.utf8Size := by
  rw [encoded, List.length_map, String.length_utf8EncodeChar]

theorem toNat_ofUInt8 (byte : UInt8) : (Char.ofUInt8 byte).toNat = byte.toNat :=
  UInt8.toNat_toUInt32 byte

/-- An ASCII character is its own byte. -/
theorem encoded_of_isAscii {c : Char} (ascii : isAscii c = true) : encoded c = [c] := by
  have small : c.val.toNat < 128 := by simpa [isAscii] using ascii
  have single : String.utf8EncodeChar c = [UInt8.ofNat c.val.toNat] := by
    rw [String.utf8EncodeChar]
    exact if_pos (Nat.le_of_lt_succ small)
  have same : Char.ofUInt8 (UInt8.ofNat c.val.toNat) = c := by
    rw [← Char.toNat_inj, toNat_ofUInt8, UInt8.toNat_ofNat_of_lt' (Nat.lt_trans small (by decide))]
    rfl
  rw [encoded, single, List.map_singleton, same]

/-- The bytes of other characters are no ASCII characters. -/
theorem isAscii_of_mem_encoded {c : Char} (noAscii : isAscii c = false) :
    ∀ byte ∈ encoded c, isAscii byte = false := by
  have large : ¬ c.val.toNat ≤ 127 := by
    have beyond : ¬ c.toNat < 128 := by simpa [isAscii] using noAscii
    exact fun small => beyond (Nat.lt_succ_of_le small)
  have beyond : ∀ number, 128 ≤ number → number < 256 →
      isAscii (Char.ofUInt8 (UInt8.ofNat number)) = false := by
    intro number low high
    rw [isAscii, toNat_ofUInt8, UInt8.toNat_ofNat_of_lt' high]
    simpa using low
  unfold encoded String.utf8EncodeChar
  simp only [if_neg large]
  repeat' split
  all_goals
    simp only [List.map_cons, List.map_nil, List.forall_mem_cons]
    repeat' apply And.intro
    all_goals first
      | exact List.forall_mem_nil _
      | exact beyond _ (by omega) (by omega)

/-- Whether a class of characters has all characters beyond ASCII or none of them. -/
def IsAsciiClass (belongs : Char → Bool) : Prop :=
  ∀ c d, isAscii c = false → isAscii d = false → belongs c = belongs d

/-- Such a class has a character if it has the bytes of it. -/
theorem IsAsciiClass.eq_of_mem_encoded {belongs : Char → Bool} (isClass : IsAsciiClass belongs)
    {c byte : Char} (isByte : byte ∈ encoded c) : belongs byte = belongs c := by
  cases ascii : isAscii c with
  | true =>
      rw [encoded_of_isAscii ascii, List.mem_singleton] at isByte
      rw [isByte]
  | false => exact isClass _ _ (isAscii_of_mem_encoded ascii byte isByte) ascii

theorem IsAsciiClass.of_isAscii {belongs : Char → Bool}
    (ascii : ∀ c, belongs c = true → isAscii c = true) : IsAsciiClass belongs := by
  have excludes : ∀ c, isAscii c = false → belongs c = false := by
    intro c noAscii
    rw [Bool.eq_false_iff]
    intro member
    rw [ascii c member] at noAscii
    cases noAscii
  exact fun c d noAscii noAscii' => (excludes c noAscii).trans (excludes d noAscii').symm

theorem IsAsciiClass.not {belongs : Char → Bool} (isClass : IsAsciiClass belongs) :
    IsAsciiClass fun c => !belongs c :=
  fun c d noAscii noAscii' => congrArg (!·) (isClass c d noAscii noAscii')

theorem IsAsciiClass.and {first second : Char → Bool} (isClass : IsAsciiClass first)
    (isClass' : IsAsciiClass second) : IsAsciiClass fun c => first c && second c :=
  fun c d noAscii noAscii' => by
    simp only [isClass c d noAscii noAscii', isClass' c d noAscii noAscii']

theorem IsAsciiClass.or {first second : Char → Bool} (isClass : IsAsciiClass first)
    (isClass' : IsAsciiClass second) : IsAsciiClass fun c => first c || second c :=
  fun c d noAscii noAscii' => by
    simp only [isClass c d noAscii noAscii', isClass' c d noAscii noAscii']

theorem isAsciiClass_isAsciiSpace : IsAsciiClass isAsciiSpace := by
  refine .of_isAscii fun c blank => ?_
  simp only [isAsciiSpace, Bool.or_eq_true, beq_iff_eq, Bool.and_eq_true,
    decide_eq_true_eq] at blank
  rcases blank with rfl | ⟨_, high⟩
  · decide
  · simp only [isAscii, decide_eq_true_eq]
    omega

theorem isAsciiClass_isDigit : IsAsciiClass Char.isDigit := by
  refine .of_isAscii fun c digit => ?_
  have bounds := isDigit_iff_toNat.mp digit
  simp only [isAscii, decide_eq_true_eq]
  omega

theorem isAsciiClass_beq {d : Char} (ascii : isAscii d = true) : IsAsciiClass (· == d) :=
  .of_isAscii fun c same => by rwa [beq_iff_eq.mp same]

/-! ## Bytes of texts -/

/-- The number of bytes of a text. -/
def byteLength (text : List Char) : Nat :=
  (String.ofList text).utf8ByteSize

/-- The byte of a text at an offset. -/
def byte? (text : String) (offset : Nat) : Option Char :=
  (text.toByteArray[offset]?).map Char.ofUInt8

theorem byteLength_nil : byteLength [] = 0 := by
  simp [byteLength]

theorem byteLength_cons (c : Char) (text : List Char) :
    byteLength (c :: text) = c.utf8Size + byteLength text := by
  rw [byteLength, String.ofList_cons, String.utf8ByteSize_append, String.utf8ByteSize_singleton,
    byteLength]

theorem byteLength_append (text more : List Char) :
    byteLength (text ++ more) = byteLength text + byteLength more := by
  rw [byteLength, String.ofList_append, String.utf8ByteSize_append, byteLength, byteLength]

theorem byteLength_toList (text : String) : byteLength text.toList = text.utf8ByteSize := by
  rw [byteLength, String.ofList_toList]

theorem byteLength_eq_zero_iff {text : List Char} : byteLength text = 0 ↔ text = [] := by
  cases text with
  | nil => simp [byteLength_nil]
  | cons c text =>
      rw [byteLength_cons]
      have pos := c.utf8Size_pos
      exact iff_of_false (by omega) (List.cons_ne_nil c text)

theorem utf8Size_of_isAscii {c : Char} (ascii : isAscii c = true) : c.utf8Size = 1 := by
  rw [← length_encoded, encoded_of_isAscii ascii, List.length_singleton]

theorem length_flatMap_encoded (text : List Char) :
    (text.flatMap encoded).length = byteLength text := by
  induction text with
  | nil => rw [byteLength_nil, List.flatMap_nil, List.length_nil]
  | cons c text ih =>
      rw [List.flatMap_cons, List.length_append, length_encoded, ih, byteLength_cons]

/-- Of two ends of a text the one with fewer characters has fewer bytes. -/
theorem byteLength_lt_iff {text first second : List Char} (isEnd : first <:+ text)
    (isEnd' : second <:+ text) :
    byteLength first < byteLength second ↔ first.length < second.length := by
  rcases List.suffix_or_suffix_of_suffix isEnd isEnd' with ⟨more, rfl⟩ | ⟨more, rfl⟩
  · have sameZero : byteLength more = 0 ↔ more.length = 0 := by
      rw [byteLength_eq_zero_iff, List.length_eq_zero_iff]
    rw [byteLength_append, List.length_append]
    omega
  · rw [byteLength_append, List.length_append]
    omega

/-- The bytes of a text are those of its characters. -/
theorem byte?_eq (text : String) (offset : Nat) :
    byte? text offset = (text.toList.flatMap encoded)[offset]? := by
  have isBytes : text.toByteArray = (text.toList.flatMap String.utf8EncodeChar).toByteArray := by
    conv => lhs; rw [← String.ofList_toList (s := text), String.toByteArray_ofList]
    rfl
  have isList : ∀ bytes : List UInt8, bytes.toByteArray[offset]? = bytes[offset]? := by
    intro bytes
    by_cases inside : offset < bytes.length
    · rw [getElem?_pos bytes.toByteArray offset (by simpa using inside), List.getElem_toByteArray,
        List.getElem?_eq_getElem inside]
    · rw [getElem?_neg bytes.toByteArray offset (by simpa using inside),
        List.getElem?_eq_none (Nat.le_of_not_lt inside)]
  rw [byte?, isBytes, isList, ← List.getElem?_map, List.map_flatMap]
  rfl

section

variable {text : String} {before after : List Char} {c : Char}

/-- At each offset inside of a character there is one of its bytes. -/
theorem byte?_of_append (isText : text.toList = before ++ c :: after) {index : Nat}
    (inside : index < c.utf8Size) :
    byte? text (byteLength before + index) = (encoded c)[index]? := by
  rw [byte?_eq, isText, List.flatMap_append, ← length_flatMap_encoded,
    List.getElem?_append_right (Nat.le_add_right _ _), Nat.add_sub_cancel_left, List.flatMap_cons,
    List.getElem?_append_left (by rwa [length_encoded])]

theorem exists_byte?_of_append (isText : text.toList = before ++ c :: after) {index : Nat}
    (inside : index < c.utf8Size) :
    ∃ byte ∈ encoded c, byte? text (byteLength before + index) = some byte := by
  rw [byte?_of_append isText inside,
    List.getElem?_eq_getElem (show index < (encoded c).length by rwa [length_encoded])]
  exact ⟨_, List.getElem_mem _, rfl⟩

/-- Behind the text there are no bytes. -/
theorem byte?_eq_none_iff {offset : Nat} :
    byte? text offset = none ↔ text.utf8ByteSize ≤ offset := by
  rw [byte?_eq, List.getElem?_eq_none_iff, length_flatMap_encoded, byteLength_toList]

theorem lt_of_byte?_eq_some {offset : Nat} (isByte : byte? text offset = some c) :
    offset < text.utf8ByteSize := by
  refine Nat.lt_of_not_le fun isEnd => ?_
  rw [byte?_eq_none_iff.mpr isEnd] at isByte
  cases isByte

theorem byteLength_of_append_nil (isText : text.toList = before ++ []) :
    byteLength before = text.utf8ByteSize := by
  rw [← byteLength_toList, isText, List.append_nil]

/-- An ASCII character is found at a place by its byte there. -/
theorem byte?_eq_some_iff_head? {d : Char} (ascii : isAscii d = true)
    (isText : text.toList = before ++ after) :
    byte? text (byteLength before) = some d ↔ after.head? = some d := by
  cases after with
  | nil =>
      rw [byte?_eq_none_iff.mpr (Nat.le_of_eq (byteLength_of_append_nil isText).symm)]
      rfl
  | cons c after =>
      rcases exists_byte?_of_append isText c.utf8Size_pos with ⟨byte, member, isByte⟩
      have same := (isAsciiClass_beq ascii).eq_of_mem_encoded member
      rw [Nat.add_zero] at isByte
      rw [isByte, List.head?_cons, Option.some_inj, Option.some_inj, ← beq_iff_eq, same, beq_iff_eq]

/-- So is one before a place. -/
theorem byte?_eq_some_iff_getLast? {d : Char} (ascii : isAscii d = true)
    (isText : text.toList = before ++ c :: after) :
    byte? text (byteLength (before ++ [c]) - 1) = some d ↔ c = d := by
  have isOffset : byteLength (before ++ [c]) - 1 = byteLength before + (c.utf8Size - 1) := by
    rw [byteLength_append, byteLength_cons, byteLength_nil]
    have pos := c.utf8Size_pos
    omega
  have inside : c.utf8Size - 1 < c.utf8Size := Nat.sub_lt c.utf8Size_pos Nat.zero_lt_one
  rcases exists_byte?_of_append isText inside with ⟨byte, member, isByte⟩
  have same := (isAsciiClass_beq ascii).eq_of_mem_encoded member
  rw [isOffset, isByte, Option.some_inj, ← beq_iff_eq, same, beq_iff_eq]

/-! ## Boundaries -/

/-- Between two parts of a text there is a boundary of characters. -/
theorem isValid_byteLength (isText : text.toList = before ++ after) :
    (String.Pos.Raw.mk (byteLength before)).IsValid text := by
  rw [String.Pos.Raw.isValid_iff_exists_append]
  refine ⟨String.ofList before, String.ofList after, ?_, rfl⟩
  rw [← String.ofList_append, ← isText, String.ofList_toList]

/-- Whether two offsets are the ends of a part of the text that is made of characters. -/
def IsSlice (text : String) (first last : Nat) : Prop :=
  first ≤ last ∧ (String.Pos.Raw.mk first).IsValid text ∧ (String.Pos.Raw.mk last).IsValid text

instance (text : String) (first last : Nat) : Decidable (IsSlice text first last) :=
  inferInstanceAs (Decidable (_ ∧ _ ∧ _))

/-- The part of the text between two offsets. -/
def slice {text : String} {first last : Nat} (isSlice : IsSlice text first last) : String :=
  text.extract ⟨⟨first⟩, isSlice.2.1⟩ ⟨⟨last⟩, isSlice.2.2⟩

theorem isSlice_of_append {taken : List Char} (isText : text.toList = before ++ (taken ++ after)) :
    IsSlice text (byteLength before) (byteLength before + byteLength taken) := by
  have isText' : text.toList = (before ++ taken) ++ after := by rw [isText, List.append_assoc]
  refine ⟨Nat.le_add_right _ _, isValid_byteLength isText, ?_⟩
  rw [← byteLength_append]
  exact isValid_byteLength isText'

example : ¬ IsSlice "é;" 0 1 ∧ IsSlice "é;" 0 2 := by decide

/-- The characters between two boundaries. -/
theorem toList_slice {taken : List Char} (isText : text.toList = before ++ (taken ++ after))
    (isSlice : IsSlice text (byteLength before) (byteLength before + byteLength taken)) :
    (slice isSlice).toList = taken := by
  have isWhole : text = String.ofList before ++ (String.ofList taken ++ String.ofList after) := by
    rw [← String.ofList_append, ← String.ofList_append, ← isText, String.ofList_toList]
  have sameBytes : (slice isSlice).toByteArray = (String.ofList taken).toByteArray := by
    calc (slice isSlice).toByteArray
      _ = text.toByteArray.extract (byteLength before) (byteLength before + byteLength taken) :=
        String.toByteArray_extract
      _ = (String.ofList taken ++ String.ofList after).toByteArray.extract 0
            (byteLength taken) := by
        have skipped := @ByteArray.extract_append_size_add (String.ofList before).toByteArray
          (String.ofList taken ++ String.ofList after).toByteArray 0 (byteLength taken)
        rwa [← String.toByteArray_append, ← isWhole, String.size_toByteArray] at skipped
      _ = (String.ofList taken).toByteArray := by
        rw [String.toByteArray_append]
        exact ByteArray.extract_append_eq_left String.size_toByteArray.symm
  rw [String.toByteArray_inj.mp sameBytes, String.toList_ofList]

end

/-! ## Passing over bytes -/

/-- The first offset, from the given one on, that does not belong or is behind the text. -/
def pastWhile (text : String) (belongs : Nat → Bool) (offset : Nat) : Nat :=
  if offset < text.utf8ByteSize ∧ belongs offset = true then pastWhile text belongs (offset + 1)
  else offset
termination_by text.utf8ByteSize - offset

/-- The offset behind all bytes of a class, from the given one on. -/
def pastClass (text : String) (belongs : Char → Bool) (offset : Nat) : Nat :=
  pastWhile text (fun offset => (byte? text offset).any belongs) offset

section

variable {text : String} {before after : List Char} {c : Char}

theorem pastWhile_add {belongs : Nat → Bool} {offset : Nat} (count : Nat)
    (passes : ∀ index < count, offset + index < text.utf8ByteSize ∧
      belongs (offset + index) = true) :
    pastWhile text belongs offset = pastWhile text belongs (offset + count) := by
  induction count with
  | zero => rfl
  | succ count ih =>
      rw [ih fun index small => passes index (Nat.lt_succ_of_lt small), pastWhile,
        if_pos (passes count (Nat.lt_succ_self count)), Nat.add_assoc]

theorem pastWhile_of_not {belongs : Nat → Bool} {offset : Nat} (stops : belongs offset = false) :
    pastWhile text belongs offset = offset := by
  rw [pastWhile, if_neg]
  rintro ⟨_, goesOn⟩
  rw [stops] at goesOn
  cases goesOn

theorem pastWhile_of_end {belongs : Nat → Bool} {offset : Nat}
    (isEnd : text.utf8ByteSize ≤ offset) : pastWhile text belongs offset = offset := by
  rw [pastWhile, if_neg fun both => Nat.not_lt.mpr isEnd both.1]

/-- Passing over the bytes of a class is passing over the characters of it. -/
theorem pastClass_eq {belongs : Char → Bool} (isClass : IsAsciiClass belongs) {rest : List Char}
    (isText : text.toList = before ++ rest) :
    pastClass text belongs (byteLength before) =
      byteLength before + byteLength (rest.takeWhile belongs) := by
  unfold pastClass
  induction rest generalizing before with
  | nil =>
      rw [List.takeWhile_nil, byteLength_nil, Nat.add_zero]
      exact pastWhile_of_end (Nat.le_of_eq (byteLength_of_append_nil isText).symm)
  | cons c rest ih =>
      have isByte : ∀ index < c.utf8Size,
          byteLength before + index < text.utf8ByteSize ∧
            (byte? text (byteLength before + index)).any belongs = belongs c := by
        intro index inside
        rcases exists_byte?_of_append isText inside with ⟨byte, member, isByte⟩
        refine ⟨lt_of_byte?_eq_some isByte, ?_⟩
        rw [isByte, Option.any_some, isClass.eq_of_mem_encoded member]
      cases isMember : belongs c with
      | true =>
          rw [isMember] at isByte
          have further : text.toList = (before ++ [c]) ++ rest := by simpa using isText
          have goesOn := ih further
          rw [byteLength_append, byteLength_cons, byteLength_nil, Nat.add_zero] at goesOn
          rw [pastWhile_add c.utf8Size isByte, goesOn, List.takeWhile_cons_of_pos isMember,
            byteLength_cons, Nat.add_assoc]
      | false =>
          rw [List.takeWhile_cons_of_neg (by simp [isMember]), byteLength_nil]
          exact pastWhile_of_not ((isByte 0 c.utf8Size_pos).2.trans isMember)

end

end AnalyzerGlue.Text
