import AnalyzerGlue.Evt.Cursor
import AnalyzerGlue.Proofs.Text.Bytes

/-!
# A cursor that counts bytes

A place in a statement can be kept as the number of bytes before it.  Readers then go over
the statement byte by byte, look at neighbouring bytes by their offsets, and jump over the
byte behind a backslash without a look at it.  What they return is made of slices of the
text.  A slice whose ends are not between characters cannot be taken, which is a failure
apart from the errors in statements.

All slices that readers try to take are noted in the cursor.
-/

namespace AnalyzerGlue.Evt

open AnalyzerGlue.Text

/-- A place in a text by the number of bytes before it, and the ends of the slices that have
been asked for so far. -/
structure ByteCursor where
  text : String
  offset : Nat
  slices : List (Nat × Nat)

/-- Why a reader of bytes fails: there is an error in the statement, or a slice would split
a character. -/
inductive ByteFailure where
  | refused (error : EvtError)
  | splits (first last : Nat)

namespace ByteCursor

/-- The start of a text. -/
def start (text : String) : ByteCursor :=
  ⟨text, 0, []⟩

/-- The number of bytes behind the place. -/
def left (cursor : ByteCursor) : Nat :=
  cursor.text.utf8ByteSize - cursor.offset

/-- The offset behind the white space that follows. -/
def pastSpaces (cursor : ByteCursor) : Nat :=
  pastClass cursor.text isAsciiSpace cursor.offset

end ByteCursor

/-- A reader of bytes. -/
abbrev ByteReader := EStateM ByteFailure ByteCursor

namespace ByteReader

open Reader (Round Endpoint isIdChar portsOf)

/-- Finds an error in the statement. -/
def refuse {α : Type} (error : EvtError) : ByteReader α :=
  throw (.refused error)

/-- Goes to an offset. -/
def moveTo (offset : Nat) : ByteReader Unit :=
  modify fun cursor => { cursor with offset := offset }

/-- The characters of the text between two offsets. -/
def slice (first last : Nat) : ByteReader (List Char) := fun cursor =>
  let noted := { cursor with slices := cursor.slices ++ [(first, last)] }
  if isSlice : IsSlice cursor.text first last then .ok (Text.slice isSlice).toList noted
  else .error (.splits first last) noted

/-- The text behind the place. -/
def rest : ByteReader (List Char) := do
  let cursor ← get
  slice cursor.offset cursor.text.utf8ByteSize

/-- Takes white space. -/
def spaces : ByteReader Unit := do
  moveTo (← get).pastSpaces

/-- The offset behind a token, if it follows after white space. -/
def after? (token : String) : ByteReader (Option Nat) := do
  let cursor ← get
  let behind ← slice cursor.pastSpaces cursor.text.utf8ByteSize
  return if (dropStart? token.toList behind).isSome then
    some (cursor.pastSpaces + token.utf8ByteSize) else none

/-- Takes a token. -/
def expect (token : String) : ByteReader Unit := do
  match ← after? token with
  | some behind => moveTo behind
  | none => refuse (.expectedToken token)

/-- Takes a token if it follows, and says whether it did. -/
def accept (token : String) : ByteReader Bool := do
  match ← after? token with
  | some behind =>
      moveTo behind
      return true
  | none => return false

/-- Takes what belongs behind white space, where it depends on the text and the offset of a
byte whether it belongs. -/
def span (belongs : String → Nat → Bool) : ByteReader (List Char) := do
  spaces
  let cursor ← get
  let last := pastWhile cursor.text (belongs cursor.text) cursor.offset
  moveTo last
  slice cursor.offset last

/-- Takes the bytes of a class behind white space. -/
def spanClass (belongs : Char → Bool) : ByteReader (List Char) :=
  span fun text offset => (byte? text offset).any belongs

/-- Repeats rounds until one is the last.  A round that wants another one has to
move the cursor, or it is the last too. -/
def loop {α : Type} (round : α → ByteReader (Round α)) (state : α) : ByteReader α :=
  fun cursor =>
    match round state cursor with
    | .error failure moved => .error failure moved
    | .ok (.done final) moved => .ok final moved
    | .ok (.again next) moved =>
        if moved.left < cursor.left then loop round next moved
        else .ok next moved
termination_by cursor => cursor.left

/-! ## Words -/

/-- Whether the byte at an offset belongs to an id, given those before and behind it. -/
def isIdByte (text : String) (offset : Nat) : Bool :=
  (byte? text offset).any fun c =>
    isIdChar (if offset = 0 then none else byte? text (offset - 1)) c (byte? text (offset + 1))

/-- Takes an id. -/
def ident : ByteReader QualName := do
  match ← span isIdByte with
  | [] => refuse .expectedId
  | taken => return .ofWritten taken

/-- Takes bytes up to white space or one that ends the word. -/
def wordUpTo (ends : Char → Bool) : ByteReader String := do
  match ← spanClass fun c => !isAsciiSpace c && !ends c with
  | [] => refuse .expectedPath
  | taken => return String.ofList taken

/-- Takes a path, which ends at a semicolon. -/
def path : ByteReader String :=
  wordUpTo fun c => c == ';'

/-- Takes a MIME type, which ends at a semicolon or a comma. -/
def mimeType : ByteReader String :=
  wordUpTo fun c => c == ';' || c == ','

/-! ## Numbers -/

/-- The offset behind a sign. -/
def pastSign (text : String) (offset : Nat) : Nat :=
  if byte? text offset = some '-' ∨ byte? text offset = some '+' then offset + 1 else offset

/-- Takes an integer. -/
def integer : ByteReader Int := do
  spaces
  let cursor ← get
  let first := pastSign cursor.text cursor.offset
  let last := pastClass cursor.text Char.isDigit first
  if last = first then refuse .expectedInteger
  else
    let numeral ← slice cursor.offset last
    moveTo last
    match readSigned? numeral with
    | some value => return value
    | none => refuse (.integerOutOfRange (String.ofList numeral))

/-! ## Ports -/

/-- Takes a port number and the transport protocol behind it. -/
def endpoint : ByteReader Endpoint := do
  let digits ← spanClass Char.isDigit
  if digits.isEmpty then refuse .invalidPort
  else
    match (readNat? 10 digits).filter (· ≤ Port.maxNumber) with
    | none => refuse .portOutOfRange
    | some number =>
        let cursor ← get
        if byte? cursor.text cursor.offset = some '/' then
          moveTo (cursor.offset + 1)
          match ← Transport.all.findM? fun transport => do
            return (← after? transport.keyword).isSome with
          | some transport =>
              expect transport.keyword
              return ⟨number, some transport⟩
          | none => refuse .invalidPort
        else return ⟨number, none⟩

/-- Takes endpoints with dashes between them. -/
def endpoints : ByteReader (List Endpoint) := do
  let first ← endpoint
  loop (fun taken => do
    if ← accept "-" then
      let next ← endpoint
      return .again (taken ++ [next])
    else
      return .done taken) [first]

/-- Takes a port or a range of ports. -/
def ports : ByteReader (List Port) := do
  match portsOf (← endpoints) with
  | .ok taken => return taken
  | .error error => refuse error

/-! ## Expressions -/

/-- The offset of the quote that ends a string, from an offset in the string on.  A
backslash is passed over together with the byte behind it. -/
def closingQuote? (text : String) (offset : Nat) : Option Nat :=
  if inside : offset < text.utf8ByteSize then
    if byte? text offset = some '\\' then closingQuote? text (offset + 2)
    else if byte? text offset = some '"' then some offset
    else closingQuote? text (offset + 1)
  else none
termination_by text.utf8ByteSize - offset

/-- A string ends behind the place where it is looked at. -/
theorem le_of_closingQuote? {text : String} {offset quote : Nat}
    (found : closingQuote? text offset = some quote) : offset ≤ quote := by
  fun_induction closingQuote? text offset with
  | case1 offset _ _ ih => exact Nat.le_trans (Nat.le_add_right _ _) (ih found)
  | case2 offset _ _ _ => exact Nat.le_of_eq (Option.some.inj found)
  | case3 offset _ _ _ ih => exact Nat.le_trans (Nat.le_add_right _ _) (ih found)
  | case4 => cases found

/-- The offset behind an expression, which ends before a comma or a closing parenthesis that
is in no brackets, or at the end of the text.  Strings are jumped over. -/
def pastExpr (text : String) (level offset : Nat) : Except EvtError Nat :=
  match isByte : byte? text offset with
  | none => .ok offset
  | some c =>
      if c = '(' ∨ c = '[' ∨ c = '\x7b' then pastExpr text (level + 1) (offset + 1)
      else if level = 0 ∧ (c = ')' ∨ c = ',') then .ok offset
      else if c = ')' ∨ c = ']' ∨ c = '\x7d' then
        match level with
        | 0 => .error (.unbalanced c)
        | outer + 1 => pastExpr text outer (offset + 1)
      else if c = '"' then
        match isQuote : closingQuote? text (offset + 1) with
        | none => .error .unterminatedString
        | some quote => pastExpr text level (quote + 1)
      else pastExpr text level (offset + 1)
termination_by text.utf8ByteSize - offset
decreasing_by
  all_goals
    have inside := lt_of_byte?_eq_some isByte
    first
      | omega
      | have further := le_of_closingQuote? isQuote
        omega

/-- Takes an expression, without the white space around it. -/
def expr : ByteReader String := do
  spaces
  let cursor ← get
  match pastExpr cursor.text 0 cursor.offset with
  | .error error => refuse error
  | .ok last =>
      let taken ← slice cursor.offset last
      moveTo last
      match trim taken with
      | [] => refuse .expectedExpression
      | text => return String.ofList text

end ByteReader

end AnalyzerGlue.Evt
