import AnalyzerGlue.Evt.Error
import AnalyzerGlue.Port
import AnalyzerGlue.QualName
import AnalyzerGlue.Text.Numeral
import AnalyzerGlue.Text.Replace
import AnalyzerGlue.Text.Space

/-!
# Reading statements with a cursor

A cursor is a place in the text of one statement.  The readers skip ASCII white
space first and then move the cursor over what they take.  Keywords are taken
without regard to what follows them: nothing sets them apart from a word that
starts with them.
-/

namespace AnalyzerGlue.Evt

open AnalyzerGlue.Text

/-- A place in a text: the characters before it, the last one first, and those
behind it. -/
structure Cursor where
  seen : List Char
  rest : List Char
deriving DecidableEq, Repr

namespace Cursor

/-- The start of a text. -/
def start (text : List Char) : Cursor :=
  ⟨[], text⟩

/-- The place behind some characters, before the given rest. -/
def past (cursor : Cursor) (taken rest : List Char) : Cursor :=
  ⟨taken.reverse ++ cursor.seen, rest⟩

/-- The place behind the white space that follows. -/
def skipSpaces (cursor : Cursor) : Cursor :=
  cursor.past (cursor.rest.takeWhile isAsciiSpace) (cursor.rest.dropWhile isAsciiSpace)

/-- The place behind a token, if it follows after white space. -/
def after? (cursor : Cursor) (token : String) : Option Cursor :=
  let there := cursor.skipSpaces
  (dropStart? token.toList there.rest).map (there.past token.toList)

/-- Whether a token follows after white space. -/
def at? (cursor : Cursor) (token : String) : Bool :=
  (cursor.after? token).isSome

end Cursor

/-- A reader: it takes something from the place of a cursor and moves on. -/
abbrev Reader := EStateM EvtError Cursor

namespace Reader

/-- Takes white space. -/
def spaces : Reader Unit :=
  modify Cursor.skipSpaces

/-- Whether a token follows. -/
def sees (token : String) : Reader Bool := do
  return (← get).at? token

/-- Takes a token. -/
def expect (token : String) : Reader Unit := do
  match (← get).after? token with
  | some behind => set behind
  | none => throw (.expectedToken token)

/-- Takes a token if it follows, and says whether it did. -/
def accept (token : String) : Reader Bool := do
  match (← get).after? token with
  | some behind =>
      set behind
      return true
  | none => return false

/-- Takes the first of two parts into which a function cuts the text behind the
cursor and its white space. -/
def span (cut : Cursor → List Char × List Char) : Reader (List Char) := do
  spaces
  let cursor ← get
  let (taken, rest) := cut cursor
  set (cursor.past taken rest)
  return taken

/-- The outcome of one round of a loop. -/
inductive Round (α : Type) where
  | again (state : α)
  | done (state : α)

/-- Repeats rounds until one is the last.  A round that wants another one has to
move the cursor, or it is the last too. -/
def loop {α : Type} (round : α → Reader (Round α)) (state : α) : Reader α :=
  fun cursor =>
    match round state cursor with
    | .error error moved => .error error moved
    | .ok (.done final) moved => .ok final moved
    | .ok (.again next) moved =>
        if moved.rest.length < cursor.rest.length then loop round next moved
        else .ok next moved
termination_by cursor => cursor.rest.length

/-! ## Words -/

/-- Whether a character belongs to an id, given those before and behind it.  A
colon does beside another colon. -/
def isIdChar (before : Option Char) (c : Char) (behind : Option Char) : Bool :=
  c.isAlphanum || c == '_' || c == '$' || c == '%' ||
    (c == ':' && (behind == some ':' || before == some ':'))

/-- Cuts a text behind the id at its start. -/
def cutId (before : Option Char) : List Char → List Char × List Char
  | [] => ([], [])
  | c :: rest =>
      if isIdChar before c rest.head? then
        let (taken, left) := cutId (some c) rest
        (c :: taken, left)
      else ([], c :: rest)

/-- Takes an id. -/
def ident : Reader QualName := do
  match ← span fun cursor => cutId cursor.seen.head? cursor.rest with
  | [] => throw .expectedId
  | taken => return .ofWritten taken

/-- Takes characters up to white space or one that ends the word. -/
def wordUpTo (ends : Char → Bool) : Reader String := do
  let belongs (c : Char) : Bool := !isAsciiSpace c && !ends c
  match ← span fun cursor => (cursor.rest.takeWhile belongs, cursor.rest.dropWhile belongs) with
  | [] => throw .expectedPath
  | taken => return String.ofList taken

/-- Takes a path, which ends at a semicolon. -/
def path : Reader String :=
  wordUpTo fun c => c == ';'

/-- Takes a MIME type, which ends at a semicolon or a comma. -/
def mimeType : Reader String :=
  wordUpTo fun c => c == ';' || c == ','

/-! ## Numbers -/

/-- Cuts a text behind its sign. -/
def cutSign : List Char → List Char × List Char
  | '-' :: rest => (['-'], rest)
  | '+' :: rest => (['+'], rest)
  | rest => ([], rest)

/-- Takes an integer. -/
def integer : Reader Int := do
  spaces
  let cursor ← get
  let (sign, rest) := cutSign cursor.rest
  let digits := rest.takeWhile Char.isDigit
  if digits.isEmpty then throw .expectedInteger
  else
    set (cursor.past (sign ++ digits) (rest.dropWhile Char.isDigit))
    match readSigned? (sign ++ digits) with
    | some value => return value
    | none => throw (.integerOutOfRange (String.ofList (sign ++ digits)))

/-! ## Ports -/

/-- A port number, with a transport protocol if one is given. -/
structure Endpoint where
  number : Nat
  transport : Option Transport
deriving DecidableEq, Repr

/-- Takes a port number and the transport protocol behind it. -/
def endpoint : Reader Endpoint := do
  let digits ← span fun cursor =>
    (cursor.rest.takeWhile Char.isDigit, cursor.rest.dropWhile Char.isDigit)
  if digits.isEmpty then throw .invalidPort
  else
    match (readNat? 10 digits).filter (· ≤ Port.maxNumber) with
    | none => throw .portOutOfRange
    | some number =>
        let cursor ← get
        match cursor.rest with
        | '/' :: rest =>
            let behind := cursor.past ['/'] rest
            set behind
            match Transport.all.find? fun transport => behind.at? transport.keyword with
            | some transport =>
                expect transport.keyword
                return ⟨number, some transport⟩
            | none => throw .invalidPort
        | _ => return ⟨number, none⟩

/-- The ports from one number to another, ends included. -/
def portRange (first last : Nat) (transport : Transport) : List Port :=
  (List.range' first (last + 1 - first)).map fun number => ⟨number, transport⟩

/-- The ports that endpoints with dashes between them stand for. -/
def portsOf (endpoints : List Endpoint) : Except EvtError (List Port) :=
  match endpoints.filterMap Endpoint.transport with
  | [] => .error .invalidPort
  | transport :: others =>
      if others.any (· != transport) then .error .portTransportMismatch
      else
        match endpoints with
        | [single] => .ok [⟨single.number, transport⟩]
        | [first, last] =>
            if last.transport.isNone then .error .invalidPort
            else if last.number < first.number then .error .portRangeInverted
            else .ok (portRange first.number last.number transport)
        | _ => .error .portRangeEndpoints

/-- Takes endpoints with dashes between them. -/
def endpoints : Reader (List Endpoint) := do
  let first ← endpoint
  loop (fun taken => do
    if ← accept "-" then
      let next ← endpoint
      return .again (taken ++ [next])
    else
      return .done taken) [first]

/-- Takes a port or a range of ports. -/
def ports : Reader (List Port) := do
  match portsOf (← endpoints) with
  | .ok taken => return taken
  | .error error => throw error

/-! ## Expressions -/

/-- Where in an expression a character is. -/
inductive Inside where
  | code
  | string
  | escape
deriving DecidableEq, Repr

/-- Cuts a text behind the expression at its start, which ends before a comma or
a closing parenthesis that is in no brackets, or at the end of the text.
Nothing in a string counts. -/
def cutExpr : Inside → Nat → List Char → Except EvtError (List Char × List Char)
  | .code, _, [] => .ok ([], [])
  | _, _, [] => .error .unterminatedString
  | .escape, level, c :: rest => extend c (cutExpr .string level rest)
  | .string, level, c :: rest =>
      if c = '\\' then extend c (cutExpr .escape level rest)
      else if c = '"' then extend c (cutExpr .code level rest)
      else extend c (cutExpr .string level rest)
  | .code, level, c :: rest =>
      if c = '(' ∨ c = '[' ∨ c = '\x7b' then extend c (cutExpr .code (level + 1) rest)
      else if level = 0 ∧ (c = ')' ∨ c = ',') then .ok ([], c :: rest)
      else if c = ')' ∨ c = ']' ∨ c = '\x7d' then
        match level with
        | 0 => .error (.unbalanced c)
        | outer + 1 => extend c (cutExpr .code outer rest)
      else if c = '"' then extend c (cutExpr .string level rest)
      else extend c (cutExpr .code level rest)
where
  /-- Puts a character in front of what has been taken. -/
  extend (c : Char) (result : Except EvtError (List Char × List Char)) :
      Except EvtError (List Char × List Char) :=
    result.map fun (taken, rest) => (c :: taken, rest)

/-- Takes an expression, without the white space around it. -/
def expr : Reader String := do
  spaces
  let cursor ← get
  match cutExpr .code 0 cursor.rest with
  | .error error => throw error
  | .ok (taken, rest) =>
      set (cursor.past taken rest)
      match trim taken with
      | [] => throw .expectedExpression
      | text => return String.ofList text

end Reader

end AnalyzerGlue.Evt
