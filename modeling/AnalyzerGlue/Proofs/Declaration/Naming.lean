import AnalyzerGlue.Declaration.Event
import AnalyzerGlue.Text.Numeral

/-!
# What the name of an event tells

The mangled name of an event is made of its name and a hash, and both can be told from it.
The hash is over a message of bytes.  Texts in a message end with a byte that no text holds,
and numbers have eight bytes each, so that the declaration can be told from its message as
long as its numbers fit into words.  Only the file cannot: a message holds the bytes of its
components and a mix of their lengths.  The root is left out, so that `/a.evt` and `a.evt` are
one file here.
-/

namespace AnalyzerGlue

/-! ## Encodings that end themselves -/

/-- From an encoding and what follows it, both can be told. -/
def SelfDelimiting {α : Type} (encode : α → List UInt8) : Prop :=
  ∀ ⦃first second : α⦄ ⦃rest others : List UInt8⦄,
    encode first ++ rest = encode second ++ others → first = second ∧ rest = others

/-- Lists are told apart at the first occurrence of an element that ends them. -/
theorem append_cons_inj_of_not_mem {α : Type} {last : α} {first second rest others : List α}
    (isEnd : last ∉ first) (isOtherEnd : last ∉ second)
    (same : first ++ last :: rest = second ++ last :: others) :
    first = second ∧ rest = others := by
  induction first generalizing second with
  | nil =>
      cases second with
      | nil => exact ⟨rfl, (List.cons.inj same).2⟩
      | cons head tail =>
          have isHead := (List.cons.inj same).1
          exact absurd (isHead ▸ List.mem_cons_self) isOtherEnd
  | cons head tail ih =>
      cases second with
      | nil =>
          have isHead := (List.cons.inj same).1
          exact absurd (isHead ▸ List.mem_cons_self) isEnd
      | cons other more =>
          rw [List.mem_cons, not_or] at isEnd isOtherEnd
          rcases List.cons.inj same with ⟨rfl, sameTails⟩
          rcases ih isEnd.2 isOtherEnd.2 sameTails with ⟨rfl, sameRests⟩
          exact ⟨rfl, sameRests⟩

namespace Event

/-! ## Words -/

/-- Numbers agree from a digit on if they agree in that digit and from the next one on. -/
theorem div_eq_of_digit {first second unit : Nat}
    (sameDigit : first / unit % 256 = second / unit % 256)
    (sameAbove : first / (unit * 256) = second / (unit * 256)) :
    first / unit = second / unit := by
  rw [← Nat.div_div_eq_div_mul, ← Nat.div_div_eq_div_mul] at sameAbove
  omega

/-- A word can be told from its bytes. -/
theorem bytesOfWord_injective : Function.Injective Hash.bytesOfWord := by
  intro first second same
  have sameDigits := congrArg (List.map UInt8.toNat) same
  simp only [Hash.bytesOfWord, List.map_cons, List.map_nil, List.cons.injEq, and_true,
    UInt64.toNat_toUInt8, UInt64.toNat_shiftRight, Nat.shiftRight_eq_div_pow,
    UInt64.reduceToNat, Nat.reduceMod, Nat.reducePow] at sameDigits
  rcases sameDigits with ⟨same0, same1, same2, same3, same4, same5, same6, same7⟩
  have noneAbove : first.toNat / UInt64.size = second.toNat / UInt64.size := by
    rw [Nat.div_eq_of_lt first.toNat_lt, Nat.div_eq_of_lt second.toNat_lt]
  have fromFourth := div_eq_of_digit same4 <| div_eq_of_digit same5 <|
    div_eq_of_digit same6 <| div_eq_of_digit same7 noneAbove
  have fromFirst := div_eq_of_digit same0 <| div_eq_of_digit same1 <|
    div_eq_of_digit same2 <| div_eq_of_digit same3 fromFourth
  rw [Nat.div_one, Nat.div_one] at fromFirst
  exact UInt64.toNat_inj.mp fromFirst

theorem selfDelimiting_bytesOfWord : SelfDelimiting Hash.bytesOfWord := by
  intro first second rest others same
  rcases List.append_inj same rfl with ⟨sameBytes, sameRests⟩
  exact ⟨bytesOfWord_injective sameBytes, sameRests⟩

/-- A number that fits into a word can be told from its bytes. -/
theorem hashedNat_inj {first second : Nat} (fits : first < UInt64.size)
    (otherFits : second < UInt64.size) (same : hashedNat first = hashedNat second) :
    first = second := by
  have sameNats := congrArg UInt64.toNat (bytesOfWord_injective same)
  rwa [UInt64.toNat_ofNat_of_lt' fits, UInt64.toNat_ofNat_of_lt' otherFits] at sameNats

/-- An integer that fits into a word can be told from it. -/
theorem toUInt64_ofInt_inj {first second : Int}
    (fits : Text.minSigned ≤ first ∧ first ≤ Text.maxSigned)
    (otherFits : Text.minSigned ≤ second ∧ second ≤ Text.maxSigned)
    (same : (Int64.ofInt first).toUInt64 = (Int64.ofInt second).toUInt64) : first = second := by
  have readBack : ∀ number, Text.minSigned ≤ number ∧ number ≤ Text.maxSigned →
      (Int64.ofInt number).toInt = number := fun _ inRange =>
    Int64.toInt_ofInt_of_le inRange.1 (Int.lt_of_le_of_lt inRange.2 (by decide))
  have sameInts := congrArg (fun word => word.toInt64.toInt) same
  simp only [Int64.toInt64_toUInt64] at sameInts
  rwa [readBack first fits, readBack second otherFits] at sameInts

/-! ## Texts -/

/-- The bytes of a character are below those that have their five highest bits set. -/
theorem toNat_lt_of_mem_utf8EncodeChar {c : Char} :
    ∀ byte ∈ String.utf8EncodeChar c, byte.toNat < 0xF8 := by
  have small : ∀ number < 0xF8, (UInt8.ofNat number).toNat < 0xF8 := by
    intro number bounded
    rwa [UInt8.toNat_ofNat_of_lt' (Nat.lt_trans bounded (by decide))]
  unfold String.utf8EncodeChar
  simp only
  repeat' split
  all_goals
    simp only [List.forall_mem_cons]
    repeat' apply And.intro
    all_goals first
      | exact List.forall_mem_nil _
      | exact small _ (by omega)

/-- No text holds the byte that ends texts. -/
theorem not_mem_textBytes (text : List Char) : 0xFF ∉ textBytes text := by
  intro member
  rcases List.mem_flatMap.mp member with ⟨c, _, isByte⟩
  exact absurd (toNat_lt_of_mem_utf8EncodeChar _ isByte) (by decide)

theorem textBytes_injective : Function.Injective textBytes := by
  intro first second same
  have sameArrays : (String.ofList first).toByteArray = (String.ofList second).toByteArray := by
    rw [String.toByteArray_ofList, String.toByteArray_ofList]
    exact congrArg List.toByteArray same
  exact String.ofList_injective (String.toByteArray_inj.mp sameArrays)

theorem selfDelimiting_hashedText : SelfDelimiting hashedText := by
  intro first second rest others same
  simp only [hashedText, List.append_assoc, List.singleton_append] at same
  rcases append_cons_inj_of_not_mem (not_mem_textBytes _) (not_mem_textBytes _) same with
    ⟨sameBytes, sameRests⟩
  exact ⟨String.toList_inj.mp (textBytes_injective sameBytes), sameRests⟩

/-- Texts one behind the other can be told if it is known how many they are. -/
theorem flatMap_hashedText_inj {texts others : List String} {rest after : List UInt8}
    (sameLength : texts.length = others.length)
    (same : texts.flatMap hashedText ++ rest = others.flatMap hashedText ++ after) :
    texts = others ∧ rest = after := by
  induction texts generalizing others with
  | nil =>
      cases List.eq_nil_of_length_eq_zero sameLength.symm
      exact ⟨rfl, same⟩
  | cons text texts ih =>
      cases others with
      | nil => cases sameLength
      | cons other others =>
          simp only [List.flatMap_cons, List.append_assoc] at same
          rcases selfDelimiting_hashedText same with ⟨rfl, sameRests⟩
          rcases ih (Nat.succ.inj sameLength) sameRests with ⟨rfl, sameAfter⟩
          exact ⟨rfl, sameAfter⟩

/-- The part of a message for a condition. -/
def hashedCondition : Option String → List UInt8
  | none => hashedNat 0
  | some condition => hashedNat 1 ++ hashedText condition

theorem selfDelimiting_hashedCondition : SelfDelimiting hashedCondition := by
  intro first second rest others same
  cases first with
  | none =>
      cases second with
      | none => exact ⟨rfl, (selfDelimiting_bytesOfWord same).2⟩
      | some condition =>
          rw [hashedCondition, hashedCondition, List.append_assoc] at same
          exact absurd (selfDelimiting_bytesOfWord same).1 (by decide)
  | some condition =>
      rw [hashedCondition, List.append_assoc] at same
      cases second with
      | none => exact absurd (selfDelimiting_bytesOfWord same).1 (by decide)
      | some other =>
          rw [hashedCondition, List.append_assoc] at same
          rcases selfDelimiting_hashedText (selfDelimiting_bytesOfWord same).2 with
            ⟨rfl, sameRests⟩
          exact ⟨rfl, sameRests⟩

/-! ## Messages -/

/-- The numbers of the declaration fit into words. -/
structure FitsWords (event : Event) : Prop where
  exprs : event.exprs.length < UInt64.size
  priority : Text.minSigned ≤ event.priority ∧ event.priority ≤ Text.maxSigned
  line : event.location.line < UInt64.size

/-- Two events are declared in the same way on the same line of what is one file as far as
messages tell. -/
structure SameDeclaration (event other : Event) : Prop where
  path : event.path = other.path
  condition : event.condition = other.condition
  name : event.name = other.name
  exprs : event.exprs = other.exprs
  priority : event.priority = other.priority
  file : hashedPath event.location.file = hashedPath other.location.file
  line : event.location.line = other.location.line

theorem message_eq (event : Event) :
    event.message = hashedText event.path.text ++ (hashedCondition event.condition ++
      (hashedText event.name.text ++ (hashedNat event.exprs.length ++
        (event.exprs.flatMap hashedText ++
          (Hash.bytesOfWord (Int64.ofInt event.priority).toUInt64 ++
            (hashedPath event.location.file ++ hashedNat event.location.line)))))) := by
  simp only [message, List.append_assoc]
  cases event.condition with
  | none => rfl
  | some condition => rfl

/-- The declaration can be told from its message. -/
theorem message_eq_iff {event other : Event} (fits : event.FitsWords)
    (otherFits : other.FitsWords) :
    event.message = other.message ↔ event.SameDeclaration other := by
  constructor
  · intro same
    rw [message_eq, message_eq] at same
    rcases selfDelimiting_hashedText same with ⟨samePath, same⟩
    rcases selfDelimiting_hashedCondition same with ⟨sameCondition, same⟩
    rcases selfDelimiting_hashedText same with ⟨sameName, same⟩
    rcases List.append_inj same rfl with ⟨sameLength, same⟩
    rcases flatMap_hashedText_inj (hashedNat_inj fits.exprs otherFits.exprs sameLength) same with
      ⟨sameExprs, same⟩
    rcases selfDelimiting_bytesOfWord same with ⟨samePriority, same⟩
    -- Nothing marks the end of a path, but there are always eight bytes behind it.
    rcases List.append_inj' same rfl with ⟨sameFile, sameLine⟩
    exact ⟨congrArg QualName.mk samePath, sameCondition, congrArg QualName.mk sameName, sameExprs,
      toUInt64_ofInt_inj fits.priority otherFits.priority samePriority, sameFile,
      hashedNat_inj fits.line otherFits.line sameLine⟩
  · rintro ⟨samePath, sameCondition, sameName, sameExprs, samePriority, sameFile, sameLine⟩
    rw [message_eq, message_eq, samePath, sameCondition, sameName, sameExprs, samePriority,
      sameFile, sameLine]

/-- The root of a path is not part of a message. -/
example : hashedPath ⟨"/a.evt"⟩ = hashedPath ⟨"a.evt"⟩ := by
  decide

/-! ## Mangled names -/

theorem digitChar_inj {first second : Nat} (bounded : first < 16) (otherBounded : second < 16)
    (same : first.digitChar = second.digitChar) : first = second := by
  have distinct : ∀ digit < 16, ∀ other < 16,
      digit.digitChar = other.digitChar → digit = other := by
    decide
  exact distinct first bounded second otherBounded same

/-- The numeral of a number in base sixteen, its last digit apart. -/
theorem toDigits_sixteen (number : Nat) :
    Nat.toDigits 16 number =
      (if number < 16 then [] else Nat.toDigits 16 (number / 16)) ++ [(number % 16).digitChar] := by
  rw [Nat.toDigits_eq_if (by decide)]
  split
  · rename_i bounded
    rw [Nat.mod_eq_of_lt bounded, List.nil_append]
  · rfl

theorem toDigits_sixteen_injective : Function.Injective (Nat.toDigits 16) := by
  intro first
  induction first using Nat.strongRecOn with
  | ind first ih =>
      intro second same
      rw [toDigits_sixteen first, toDigits_sixteen second] at same
      rcases List.append_inj' same rfl with ⟨sameFront, sameLast⟩
      have sameDigit : first % 16 = second % 16 :=
        digitChar_inj (Nat.mod_lt _ (by decide)) (Nat.mod_lt _ (by decide))
          (List.singleton_inj.mp sameLast)
      have sameQuotient : first / 16 = second / 16 := by
        split at sameFront
        · split at sameFront
          · omega
          · exact absurd sameFront.symm Nat.toDigits_ne_nil
        · split at sameFront
          · exact absurd sameFront Nat.toDigits_ne_nil
          · exact ih (first / 16) (by omega) sameFront
      omega

/-- No digit is an underscore. -/
theorem underscore_not_mem_toDigits_sixteen (number : Nat) : '_' ∉ Nat.toDigits 16 number := by
  induction number using Nat.strongRecOn with
  | ind number ih =>
      have notLast : ∀ digit < 16, digit.digitChar ≠ '_' := by decide
      rw [toDigits_sixteen, List.mem_append, List.mem_singleton, not_or]
      refine ⟨?_, fun isLast => notLast _ (Nat.mod_lt _ (by decide)) isLast.symm⟩
      split
      · exact List.not_mem_nil
      · exact ih (number / 16) (by omega)

/-- The name and the hash of an event can be told from its mangled name: the hash is what
follows the last underscore. -/
theorem mangledName_eq_iff {event other : Event} :
    event.mangledName = other.mangledName ↔
      event.name.flattened = other.name.flattened ∧ event.stableHash = other.stableHash := by
  constructor
  · intro same
    -- A name may hold underscores and a hash does not, so both are read from the end.
    have sameLists := congrArg (fun text => text.toList.reverse) same
    simp only [mangledName, hashText, String.toList_append, String.toList_ofList,
      List.reverse_append] at sameLists
    have isUnderscore : "_".toList.reverse = ['_'] := rfl
    rw [isUnderscore, List.singleton_append, List.singleton_append] at sameLists
    have notInHash : ∀ number, '_' ∉ (Nat.toDigits 16 number).reverse := fun number member =>
      underscore_not_mem_toDigits_sixteen number (List.mem_reverse.mp member)
    rcases append_cons_inj_of_not_mem (notInHash _) (notInHash _) sameLists with
      ⟨sameHash, sameName⟩
    exact ⟨String.toList_inj.mp (List.reverse_inj.mp sameName),
      UInt64.toNat_inj.mp (toDigits_sixteen_injective (List.reverse_inj.mp sameHash))⟩
  · rintro ⟨sameName, sameHash⟩
    rw [mangledName, mangledName, hashText, hashText, sameName, sameHash]

end Event

end AnalyzerGlue
