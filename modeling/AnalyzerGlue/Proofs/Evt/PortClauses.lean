import Mathlib.Data.List.Forall2
import AnalyzerGlue.Proofs.Evt.Ports
import AnalyzerGlue.Proofs.Evt.Remainder

/-!
# The ports of protocol analyzers

`ProtocolText` says what a protocol analyzer looks like, and which ports are written in its
`port` and `ports` clauses.  A text looks like this in one way at most, and each text that
is accepted does.  The ports of the analyzer are the intervals that are written, one behind
the other.
-/

namespace AnalyzerGlue.Evt.Statement

open AnalyzerGlue.Text Reader

/-! ## The text of protocol analyzers -/

/-- An id behind white space, with all the characters that belong to it. -/
def IdText (text rest : List Char) : Prop :=
  ∃ gap name, gap.all isAsciiSpace = true ∧ name ≠ [] ∧
    cutId none (name ++ rest) = (name, rest) ∧ text = gap ++ (name ++ rest)

/-- The unit that a `parse` clause names. -/
def UnitText (text rest : List Char) : Prop :=
  ∃ middle, Follows "with" text middle ∧ IdText middle rest

/-- What a `parse` clause says: a unit, for one direction if it names one. -/
inductive DirectionsText : List Char → List Char → Prop where
  | both {text rest : List Char} : UnitText text rest → DirectionsText text rest
  | originator {text middle rest : List Char} :
      Follows "originator" text middle → UnitText middle rest → DirectionsText text rest
  | responder {text middle rest : List Char} :
      Follows "responder" text middle → UnitText middle rest → DirectionsText text rest

/-- Ports in braces with commas between them. -/
def PortListText (written : List (List Endpoint)) (text rest : List Char) : Prop :=
  ∃ inner tail, Follows "\x7b" text inner ∧
    Separated PortsText "," (Before "\x7d") written inner tail ∧ Follows "\x7d" tail rest

/-- A clause of a protocol analyzer, and the ports that are written in it. -/
inductive ClauseText : List (List Endpoint) → List Char → List Char → Prop where
  | parse {text middle rest : List Char} :
      Follows "parse" text middle → DirectionsText middle rest → ClauseText [] text rest
  | ports {written : List (List Endpoint)} {text middle rest : List Char} :
      Follows "ports" text middle → PortListText written middle rest →
        ClauseText written text rest
  | port {specs : List Endpoint} {text middle rest : List Char} :
      Follows "port" text middle → PortsText specs middle rest → ClauseText [specs] text rest
  | replaces {text middle rest : List Char} :
      Follows "replaces" text middle → IdText middle rest → ClauseText [] text rest

/-- The head of a protocol analyzer. -/
inductive HeadText : List Char → List Char → Prop where
  | intro {text behindKeyword name behindName carrier behindCarrier rest : List Char} :
      Follows "protocol" text behindKeyword → Follows "analyzer" behindKeyword name →
        IdText name behindName → Follows "over" behindName carrier →
        IdText carrier behindCarrier → Follows ":" behindCarrier rest → HeadText text rest

/-- A protocol analyzer up to its semicolon, and the ports that are written in its clauses
from the first to the last. -/
def ProtocolText (written : List (List Endpoint)) (text : List Char) : Prop :=
  ∃ body rest clauses, HeadText text body ∧
    Separated ClauseText "," (Before ";") clauses body rest ∧ written = clauses.flatten

/-! ## One way to read it -/

section

variable {text rest tail : List Char}

theorem IdText.unique (first : IdText text rest) (second : IdText text tail) : rest = tail := by
  have dropped : ∀ {rest : List Char}, IdText text rest →
      rest = (cutId none (text.dropWhile isAsciiSpace)).2 := by
    rintro rest ⟨gap, name, blank, notNil, cut, rfl⟩
    rcases List.exists_cons_of_ne_nil notNil with ⟨c, others, rfl⟩
    have isShown : isAsciiSpace c = false :=
      isAsciiSpace_of_isIdPart (isIdPart_of_cutId cut c List.mem_cons_self)
    rw [List.dropWhile_append_of_pos (List.all_eq_true.mp blank), List.cons_append,
      List.dropWhile_cons_of_neg (by simp [isShown]), ← List.cons_append, cut]
  rw [dropped first, dropped second]

theorem UnitText.unique (first : UnitText text rest) (second : UnitText text tail) :
    rest = tail := by
  rcases first with ⟨middle, keyword, isId⟩
  rcases second with ⟨other, keywordToo, isIdToo⟩
  cases keyword.unique rfl keywordToo
  exact isId.unique isIdToo

theorem DirectionsText.unique (first : DirectionsText text rest)
    (second : DirectionsText text tail) : rest = tail := by
  cases first with
  | both unit =>
      rcases unit with ⟨middle, keyword, isId⟩
      cases second with
      | both unitToo => exact UnitText.unique ⟨middle, keyword, isId⟩ unitToo
      | originator other _ => exact absurd other (keyword.not_follows rfl)
      | responder other _ => exact absurd other (keyword.not_follows rfl)
  | originator keyword unit =>
      cases second with
      | both unitToo => exact absurd unitToo.choose_spec.1 (keyword.not_follows rfl)
      | originator other unitToo =>
          cases keyword.unique rfl other
          exact unit.unique unitToo
      | responder other _ => exact absurd other (keyword.not_follows rfl)
  | responder keyword unit =>
      cases second with
      | both unitToo => exact absurd unitToo.choose_spec.1 (keyword.not_follows rfl)
      | originator other _ => exact absurd other (keyword.not_follows rfl)
      | responder other unitToo =>
          cases keyword.unique rfl other
          exact unit.unique unitToo

theorem HeadText.unique (first : HeadText text rest) (second : HeadText text tail) :
    rest = tail := by
  rcases first with ⟨keyword, analyzer, name, isOver, carrier, colon⟩
  rcases second with ⟨keywordToo, analyzerToo, nameToo, overToo, carrierToo, colonToo⟩
  cases keyword.unique rfl keywordToo
  cases analyzer.unique rfl analyzerToo
  cases name.unique nameToo
  cases isOver.unique rfl overToo
  cases carrier.unique carrierToo
  exact colon.unique rfl colonToo

theorem unambiguous_portListText : Unambiguous PortListText := by
  rintro text written rest others tail ⟨inner, last, opens, areWritten, closes⟩
    ⟨innerToo, lastToo, opensToo, areOthers, closesToo⟩
  have lists : Unambiguous (Separated PortsText "," (Before "\x7d")) :=
    unambiguous_separated rfl unambiguous_portsText fun _ _ isEnd =>
      isEnd.choose_spec.not_follows rfl
  cases opens.unique rfl opensToo
  rcases lists areWritten areOthers with ⟨rfl, rfl⟩
  exact ⟨rfl, closes.unique rfl closesToo⟩

/-- Behind `port` there are no ports if the word is `ports`. -/
theorem not_portsText_of_follows {specs : List Endpoint} {middle other : List Char}
    (port : Follows "port" text middle) (ports : Follows "ports" text other) :
    ¬ PortsText specs middle rest := by
  have isMiddle : middle = 's' :: other := by
    have same := port.dropWhile_eq rfl
    rw [ports.dropWhile_eq rfl] at same
    exact (@List.append_cancel_left _ "port".toList ('s' :: other) middle same).symm
  have noNumeral : ∀ {number : Nat} {tail : List Char}, ¬ NumeralText number middle tail := by
    rintro number tail ⟨gap, digits, blank, notNil, allDigits, _, isText, _⟩
    rw [isMiddle] at isText
    cases gap with
    | nil =>
        cases digits with
        | nil => exact notNil rfl
        | cons c digits =>
            cases isText
            cases allDigits
    | cons c gap =>
        cases isText
        cases blank
  have noPort : ∀ {spec : Endpoint} {tail : List Char}, ¬ PortText spec middle tail := by
    intro spec tail isPort
    cases isPort with
    | bare numeral _ => exact noNumeral numeral
    | carried numeral _ => exact noNumeral numeral
  intro isWritten
  cases isWritten with
  | last isPort _ => exact noPort isPort
  | more isPort _ _ => exact noPort isPort

theorem unambiguous_clauseText : Unambiguous ClauseText := by
  intro text written rest others tail first second
  cases first with
  | parse keyword directions =>
      cases second with
      | parse keywordToo directionsToo =>
          cases keyword.unique rfl keywordToo
          exact ⟨rfl, directions.unique directionsToo⟩
      | ports other _ => exact absurd other (keyword.not_follows rfl)
      | port other _ => exact absurd other (keyword.not_follows rfl)
      | replaces other _ => exact absurd other (keyword.not_follows rfl)
  | ports keyword isList =>
      cases second with
      | parse other _ => exact absurd other (keyword.not_follows rfl)
      | ports keywordToo isListToo =>
          cases keyword.unique rfl keywordToo
          exact unambiguous_portListText isList isListToo
      | port other isWritten => exact absurd isWritten (not_portsText_of_follows other keyword)
      | replaces other _ => exact absurd other (keyword.not_follows rfl)
  | port keyword isWritten =>
      cases second with
      | parse other _ => exact absurd other (keyword.not_follows rfl)
      | ports other _ => exact absurd isWritten (not_portsText_of_follows keyword other)
      | port keywordToo isWrittenToo =>
          cases keyword.unique rfl keywordToo
          rcases unambiguous_portsText isWritten isWrittenToo with ⟨rfl, rfl⟩
          exact ⟨rfl, rfl⟩
      | replaces other _ => exact absurd other (keyword.not_follows rfl)
  | replaces keyword isId =>
      cases second with
      | parse other _ => exact absurd other (keyword.not_follows rfl)
      | ports other _ => exact absurd other (keyword.not_follows rfl)
      | port other _ => exact absurd other (keyword.not_follows rfl)
      | replaces keywordToo isIdToo =>
          cases keyword.unique rfl keywordToo
          exact ⟨rfl, isId.unique isIdToo⟩

theorem ProtocolText.unique {written others : List (List Endpoint)}
    (first : ProtocolText written text) (second : ProtocolText others text) :
    written = others := by
  rcases first with ⟨body, rest, clauses, isHead, areClauses, rfl⟩
  rcases second with ⟨bodyToo, restToo, clausesToo, isHeadToo, areClausesToo, rfl⟩
  have reads : Unambiguous (Separated ClauseText "," (Before ";")) :=
    unambiguous_separated rfl unambiguous_clauseText fun _ _ isEnd =>
      isEnd.choose_spec.not_follows rfl
  cases isHead.unique isHeadToo
  rcases reads areClauses areClausesToo with ⟨rfl, _⟩
  rfl

end

/-! ## What is accepted -/

/-- The later ports are the earlier ones and, behind them, the intervals that are written. -/
def Adds (written : List (List Endpoint)) (earlier later : List Port) : Prop :=
  ∃ intervals, List.Forall₂ StandsFor written intervals ∧ later = earlier ++ intervals.flatten

section

variable {cursor moved : Cursor} {written others : List (List Endpoint)}
  {earlier middle later : List Port}

theorem Adds.nil (ports : List Port) : Adds [] ports ports :=
  ⟨[], .nil, (List.append_nil ports).symm⟩

theorem Adds.single {specs : List Endpoint} {found : List Port} (stands : StandsFor specs found)
    (earlier : List Port) : Adds [specs] earlier (earlier ++ found) :=
  ⟨[found], .cons stands .nil, by rw [List.flatten_singleton]⟩

theorem Adds.trans (first : Adds written earlier middle) (second : Adds others middle later) :
    Adds (written ++ others) earlier later := by
  rcases first with ⟨intervals, areFirst, rfl⟩
  rcases second with ⟨intervalsToo, areSecond, rfl⟩
  refine ⟨intervals ++ intervalsToo, List.rel_append areFirst areSecond, ?_⟩
  rw [List.flatten_append, List.append_assoc]

/-- Ports that are added to none may be added to others. -/
theorem Adds.append_left (adds : Adds written [] later) (earlier : List Port) :
    Adds written earlier (earlier ++ later) := by
  rcases adds with ⟨intervals, areIntervals, rfl⟩
  exact ⟨intervals, areIntervals, rfl⟩

/-- What is taken as an id is one, unless a colon is before it. -/
theorem idText_of_ident {name : QualName} (free : cursor.seen.head? ≠ some ':')
    (read : ident cursor = .ok name moved) : IdText cursor.rest moved.rest := by
  rcases exists_of_bind_eq_ok read with ⟨taken, there, spanned, returned⟩
  let shown := cursor.skipSpaces
  have isText : cursor.rest = cursor.rest.takeWhile isAsciiSpace ++ shown.rest :=
    List.takeWhile_append_dropWhile.symm
  have isCut : cutId none shown.rest = (taken, there.rest) := by
    cases spanned
    exact cutId_congr (by rw [beq_eq_false_iff_ne.mpr (noColon_skipSpaces free)]; rfl) _
  have isShown := (cutId_of_cutId isCut).1
  cases taken with
  | nil => cases returned
  | cons c others =>
      cases returned
      rw [isShown] at isCut isText
      exact ⟨_, c :: others, List.all_takeWhile, by simp, isCut, isText⟩

theorem unitText_of_read {α : Type} {result : QualName → α} {value : α}
    (read : (do expect "with"; return result (← ident)) cursor = .ok value moved) :
    UnitText cursor.rest moved.rest ∧ ∃ unit, value = result unit := by
  rcases exists_of_expect_bind_eq_ok rfl read with ⟨there, follows, isBehind, goesOn⟩
  rcases exists_of_bind_eq_ok goesOn with ⟨unit, last, isUnit, returned⟩
  cases returned
  have free : there.seen.head? ≠ some ':' := by
    rw [isBehind]
    decide
  exact ⟨⟨there.rest, follows, idText_of_ident free isUnit⟩, unit, rfl⟩

theorem directionsText_of_directions {analyzer changed : ProtocolAnalyzer}
    (read : directions analyzer cursor = .ok changed moved) :
    DirectionsText cursor.rest moved.rest ∧ changed.ports = analyzer.ports := by
  rcases accept_bind_eq_ok_cases rfl read with ⟨there, follows, _, goesOn⟩ | ⟨_, read⟩
  · rcases unitText_of_read goesOn with ⟨isUnit, unit, rfl⟩
    exact ⟨.originator follows isUnit, rfl⟩
  rcases accept_bind_eq_ok_cases rfl read with ⟨there, follows, _, goesOn⟩ | ⟨_, read⟩
  · rcases unitText_of_read goesOn with ⟨isUnit, unit, rfl⟩
    exact ⟨.responder follows isUnit, rfl⟩
  rcases sees_bind_eq_ok_cases read with ⟨_, goesOn⟩ | read
  · -- The reader of the unit has to be brought into the form of the other two.
    rcases @unitText_of_read _ _ _ (fun unit =>
      { analyzer with originator := some unit, responder := some unit }) changed goesOn with
      ⟨isUnit, unit, rfl⟩
    exact ⟨.both isUnit, rfl⟩
  · cases read

/-- Ports in braces are taken as the intervals that are written. -/
theorem adds_of_portList {found : List Port} (read : portList cursor = .ok found moved) :
    ∃ written, PortListText written cursor.rest moved.rest ∧ Adds written [] found := by
  rcases exists_of_expect_bind_eq_ok rfl read with ⟨there, opens, _, looped⟩
  have added := loop_of_rounds (fun taken text final rest => ∃ written tail,
    Separated PortsText "," (Before "\x7d") written text tail ∧ Follows "\x7d" tail rest ∧
      Adds written taken final) ?_ ?_ looped
  · rcases added with ⟨written, tail, areWritten, closes, adds⟩
    exact ⟨written, ⟨there.rest, tail, opens, areWritten, closes⟩, adds⟩
  · intro taken cursor final moved isRound
    rcases exists_of_bind_eq_ok isRound with ⟨more, behind, isMore, goesOn⟩
    rcases standsFor_of_ports isMore with ⟨specs, isWritten, stands⟩
    rcases accept_bind_eq_ok_cases rfl goesOn with ⟨last, closes, _, ends⟩ | ⟨_, ends⟩
    · cases ends
      exact ⟨[specs], behind.rest, .last isWritten ⟨_, closes⟩, closes, .single stands taken⟩
    · rcases exists_of_expect_bind_eq_ok rfl ends with ⟨_, _, _, ends⟩
      cases ends
  · intro taken cursor next last isRound
    rcases exists_of_bind_eq_ok isRound with ⟨more, behind, isMore, goesOn⟩
    rcases standsFor_of_ports isMore with ⟨specs, isWritten, stands⟩
    rcases accept_bind_eq_ok_cases rfl goesOn with ⟨_, _, _, ends⟩ | ⟨_, ends⟩
    · cases ends
    · rcases exists_of_expect_bind_eq_ok rfl ends with ⟨_, isComma, _, ends⟩
      cases ends
      constructor
      · exact Nat.lt_of_lt_of_le (isComma.length_lt rfl) (covers_ports.leadsTo isMore).length_le
      · rintro final rest ⟨written, tail, areWritten, closes, adds⟩
        exact ⟨specs :: written, tail, .more isWritten isComma areWritten, closes,
          (Adds.single stands taken).trans adds⟩

/-- A clause adds the ports that are written in it. -/
theorem adds_of_protocolClause {analyzer changed : ProtocolAnalyzer}
    (read : protocolClause analyzer cursor = .ok changed moved) :
    ∃ written, ClauseText written cursor.rest moved.rest ∧
      Adds written analyzer.ports changed.ports := by
  rcases accept_bind_eq_ok_cases rfl read with ⟨there, keyword, _, goesOn⟩ | ⟨_, read⟩
  · rcases directionsText_of_directions goesOn with ⟨areDirections, samePorts⟩
    rw [samePorts]
    exact ⟨[], .parse keyword areDirections, .nil _⟩
  rcases accept_bind_eq_ok_cases rfl read with ⟨there, keyword, _, goesOn⟩ | ⟨_, read⟩
  · rcases exists_of_bind_eq_ok goesOn with ⟨found, last, isFound, returned⟩
    cases returned
    rcases adds_of_portList isFound with ⟨written, isList, adds⟩
    exact ⟨written, .ports keyword isList, adds.append_left _⟩
  rcases accept_bind_eq_ok_cases rfl read with ⟨there, keyword, _, goesOn⟩ | ⟨_, read⟩
  · rcases exists_of_bind_eq_ok goesOn with ⟨found, last, isFound, returned⟩
    cases returned
    rcases standsFor_of_ports isFound with ⟨specs, isWritten, stands⟩
    exact ⟨[specs], .port keyword isWritten, .single stands _⟩
  rcases accept_bind_eq_ok_cases rfl read with ⟨there, keyword, isBehind, goesOn⟩ | ⟨_, read⟩
  · rcases exists_of_bind_eq_ok goesOn with ⟨name, last, isName, returned⟩
    cases returned
    have free : there.seen.head? ≠ some ':' := by
      rw [isBehind]
      decide
    exact ⟨[], .replaces keyword (idText_of_ident free isName), .nil _⟩
  · cases read

/-- Clauses add their ports one behind the other. -/
theorem adds_of_clauses {analyzer final : ProtocolAnalyzer}
    (read : clauses protocolClause analyzer cursor = .ok final moved) :
    ∃ clauses, Separated ClauseText "," (Before ";") clauses cursor.rest moved.rest ∧
      Adds clauses.flatten analyzer.ports final.ports := by
  apply loop_of_rounds (fun analyzer text (final : ProtocolAnalyzer) rest => ∃ clauses,
    Separated ClauseText "," (Before ";") clauses text rest ∧
      Adds clauses.flatten analyzer.ports final.ports) ?_ ?_ read
  · intro analyzer cursor final moved isRound
    rcases exists_of_bind_eq_ok isRound with ⟨changed, behind, isClause, goesOn⟩
    rcases adds_of_protocolClause isClause with ⟨written, isText, adds⟩
    rcases sees_bind_eq_ok_cases goesOn with ⟨isEnd, ends⟩ | ends
    · cases ends
      refine ⟨[written], .last isText isEnd, ?_⟩
      rwa [List.flatten_singleton]
    · rcases exists_of_expect_bind_eq_ok rfl ends with ⟨_, _, _, ends⟩
      cases ends
  · intro analyzer cursor next last isRound
    rcases exists_of_bind_eq_ok isRound with ⟨changed, behind, isClause, goesOn⟩
    rcases adds_of_protocolClause isClause with ⟨written, isText, adds⟩
    rcases sees_bind_eq_ok_cases goesOn with ⟨_, ends⟩ | ends
    · cases ends
    · rcases exists_of_expect_bind_eq_ok rfl ends with ⟨_, isComma, _, ends⟩
      cases ends
      constructor
      · exact Nat.lt_of_lt_of_le (isComma.length_lt rfl)
          ((covers_protocolClause analyzer).leadsTo isClause).length_le
      · rintro final rest ⟨clauses, areClauses, addsToo⟩
        exact ⟨written :: clauses, .more isText isComma areClauses, adds.trans addsToo⟩

theorem idText_of_transport {carrier : Transport} (free : cursor.seen.head? ≠ some ':')
    (read : transport cursor = .ok carrier moved) : IdText cursor.rest moved.rest := by
  rcases exists_of_bind_eq_ok read with ⟨word, there, isWord, known⟩
  have isText := idText_of_ident free isWord
  cases found : Transport.ofKeyword? (word.text.map Char.toLower) with
  | none =>
      simp only [found] at known
      cases known
  | some other =>
      simp only [found] at known
      cases known
      exact isText

/-- The ports of a protocol analyzer are the intervals that are written in its clauses. -/
theorem adds_of_protocolAnalyzer {location : Location} {analyzer : ProtocolAnalyzer}
    (read : protocolAnalyzer location cursor = .ok analyzer moved) :
    ∃ written, ProtocolText written cursor.rest ∧ Adds written [] analyzer.ports := by
  rcases exists_of_expect_bind_eq_ok rfl read with ⟨_, keyword, _, goesOn⟩
  rcases exists_of_expect_bind_eq_ok rfl goesOn with ⟨_, isAnalyzer, isBehind, goesOn⟩
  rcases exists_of_bind_eq_ok goesOn with ⟨name, _, isName, goesOn⟩
  have nameText := idText_of_ident (by rw [isBehind]; decide) isName
  rcases exists_of_expect_bind_eq_ok rfl goesOn with ⟨_, isOver, isBehind, goesOn⟩
  rcases exists_of_bind_eq_ok goesOn with ⟨carrier, _, isCarrier, goesOn⟩
  have carrierText := idText_of_transport (by rw [isBehind]; decide) isCarrier
  rcases exists_of_expect_bind_eq_ok rfl goesOn with ⟨_, isColon, _, goesOn⟩
  rcases exists_of_bind_eq_ok goesOn with ⟨final, last, areClauses, goesOn⟩
  rcases adds_of_clauses areClauses with ⟨clauses, clausesText, adds⟩
  by_cases lacksUnit : (final.originator.isNone && final.responder.isNone) = true
  · rw [if_pos lacksUnit] at goesOn
    cases goesOn
  · rw [if_neg lacksUnit] at goesOn
    cases goesOn
    exact ⟨clauses.flatten, ⟨_, _, clauses,
      .intro keyword isAnalyzer nameText isOver carrierText isColon, clausesText, rfl⟩, adds⟩

end

/-- Ports are taken exactly if they stand for an interval, and then as all the ports of the
interval; the ports of a protocol analyzer are the intervals that its text names. -/
theorem ports_are_intervals :
    (∀ (cursor : Cursor) (specs : List Endpoint) (rest : List Char),
      PortsText specs cursor.rest rest →
        ((∃ found moved, ports cursor = .ok found moved) ↔
          ∃ first last transport, Denotes specs first last transport) ∧
        ∀ first last transport, Denotes specs first last transport →
          ∃ found moved, ports cursor = .ok found moved ∧ moved.rest = rest ∧
            IsInterval first last transport found) ∧
    ∀ (chunk : List Char) (location : Location) (version : Nat) (analyzer : ProtocolAnalyzer),
      parse chunk location version = .ok (.protocol analyzer) →
        (∃ written, ProtocolText written chunk) ∧
        ∀ written, ProtocolText written chunk →
          ∃ intervals, List.Forall₂ StandsFor written intervals ∧
            analyzer.ports = intervals.flatten := by
  constructor
  · intro cursor specs rest written
    refine ⟨exists_ports_eq_ok_iff written, fun first last transport denotes => ?_⟩
    rcases ports_of_denotes written denotes with ⟨moved, read, isRest⟩
    exact ⟨_, moved, read, isRest, isInterval_portRange first last transport⟩
  · intro chunk location version analyzer parsed
    unfold parse run at parsed
    split at parsed
    · rename_i statement moved isRead
      cases parsed
      have read := returns_isReadFrom location version _ _ _ _ rfl isRead
      rcases adds_of_protocolAnalyzer read with ⟨written, isText, intervals, stand, isFlat⟩
      refine ⟨⟨written, isText⟩, fun others isTextToo => ?_⟩
      cases isText.unique isTextToo
      exact ⟨intervals, stand, isFlat⟩
    · cases parsed

/-- A range up to the largest port number, by itself and between two other ports. -/
theorem ports_are_intervals_up_to_max :
    let cursor := Cursor.start "65534-65535/udp;".toList
    let specs : List Endpoint := [⟨65534, none⟩, ⟨65535, some .udp⟩]
    let chunk := ("protocol analyzer P over tcp : ports \x7b80/tcp, 65534-65535/udp\x7d, " ++
      "parse with A::U, port 7/udp;").toList
    let location : Location := ⟨⟨"l.evt"⟩, 1⟩
    let analyzer : ProtocolAnalyzer := ⟨"P", .tcp, some ⟨"A::U"⟩, some ⟨"A::U"⟩,
      [⟨80, .tcp⟩, ⟨65534, .udp⟩, ⟨65535, .udp⟩, ⟨7, .udp⟩], none, location⟩
    (PortsText specs cursor.rest [';'] ∧ Denotes specs 65534 65535 .udp ∧
      ∃ found moved, ports cursor = .ok found moved ∧ moved.rest = [';'] ∧
        IsInterval 65534 65535 .udp found) ∧
    parse chunk location 0 = .ok (.protocol analyzer) ∧
      ∃ written intervals, ProtocolText written chunk ∧
        List.Forall₂ StandsFor written intervals ∧ analyzer.ports = intervals.flatten := by
  have read : endpoints (Cursor.start "65534-65535/udp;".toList) =
      .ok [⟨65534, none⟩, ⟨65535, some .udp⟩] ⟨"65534-65535/udp".toList.reverse, [';']⟩ := by
    with_unfolding_all rfl
  have written : PortsText [⟨65534, none⟩, ⟨65535, some .udp⟩] "65534-65535/udp;".toList [';'] :=
    portsText_of_endpoints read
  have denotes : Denotes [⟨65534, none⟩, ⟨65535, some .udp⟩] 65534 65535 .udp :=
    .range (by decide) (by decide) (by decide) (.inl rfl)
  have parsed : parse ("protocol analyzer P over tcp : ports \x7b80/tcp, 65534-65535/udp\x7d, " ++
      "parse with A::U, port 7/udp;").toList ⟨⟨"l.evt"⟩, 1⟩ 0 = .ok (.protocol
        ⟨"P", .tcp, some ⟨"A::U"⟩, some ⟨"A::U"⟩,
          [⟨80, .tcp⟩, ⟨65534, .udp⟩, ⟨65535, .udp⟩, ⟨7, .udp⟩], none, ⟨⟨"l.evt"⟩, 1⟩⟩) := by
    with_unfolding_all rfl
  intro cursor specs chunk location analyzer
  have taken := (ports_are_intervals.1 cursor specs [';'] written).2 65534 65535 .udp denotes
  rcases ports_are_intervals.2 chunk location 0 analyzer parsed with ⟨⟨texts, isText⟩, all⟩
  rcases all texts isText with ⟨intervals, stand, isFlat⟩
  exact ⟨⟨written, denotes, taken⟩, parsed, texts, intervals, isText, stand, isFlat⟩

end AnalyzerGlue.Evt.Statement
