import AnalyzerGlue.Proofs.Evt.Sequence

/-!
# The text of ports and the intervals it stands for

`PortsText` says what ports look like: numbers with dashes between them, each with a
transport protocol if one is given, up to a text that goes on with neither.  A text looks
like this in one way at most.  `Denotes` says which of them stand for an interval of ports;
those, and no others, are taken, and they are taken as the interval.
-/

namespace AnalyzerGlue.Evt.Reader

open AnalyzerGlue.Text

/-! ## One port -/

/-- A numeral behind white space, with all its digits. -/
def NumeralText (number : Nat) (text rest : List Char) : Prop :=
  ∃ gap digits, gap.all isAsciiSpace = true ∧ digits ≠ [] ∧ digits.all Char.isDigit = true ∧
    (∀ c ∈ rest.head?, c.isDigit = false) ∧ text = gap ++ (digits ++ rest) ∧
    number = Nat.ofDigitChars 10 digits 0

/-- A port: a numeral, and a transport protocol if a slash follows the numeral at once. -/
inductive PortText : Endpoint → List Char → List Char → Prop where
  | bare {number : Nat} {text rest : List Char} :
      NumeralText number text rest → rest.head? ≠ some '/' → PortText ⟨number, none⟩ text rest
  | carried {number : Nat} {transport : Transport} {text behind rest : List Char} :
      NumeralText number text ('/' :: behind) → Follows transport.keyword behind rest →
        PortText ⟨number, some transport⟩ text rest

section

variable {cursor moved : Cursor} {number : Nat} {spec : Endpoint} {text rest : List Char}

/-- The characters that a port number takes off the text behind white space. -/
def cutDigits (cursor : Cursor) : List Char × List Char :=
  (cursor.rest.takeWhile Char.isDigit, cursor.rest.dropWhile Char.isDigit)

theorem span_of_numeralText (numeral : NumeralText number cursor.rest rest) :
    ∃ digits there, span cutDigits cursor = .ok digits there ∧ digits ≠ [] ∧
      readNat? 10 digits = some number ∧ there.rest = rest := by
  rcases cursor with ⟨seen, text⟩
  rcases numeral with ⟨gap, digits, blank, notNil, allDigits, ends, rfl, rfl⟩
  rcases List.exists_cons_of_ne_nil notNil with ⟨c, others, rfl⟩
  have digit : c.isDigit = true := List.all_eq_true.mp allDigits c List.mem_cons_self
  have skipped : Cursor.skipSpaces ⟨seen, gap ++ (c :: others ++ rest)⟩ =
      ⟨gap.reverse ++ seen, c :: others ++ rest⟩ := by
    apply skipSpaces_of_blanks blank
    rintro d ⟨rfl⟩
    exact isAsciiSpace_of_isDigit digit
  rcases Token.span_append allDigits ends with ⟨taken, left⟩
  have isSpan : span cutDigits ⟨seen, gap ++ (c :: others ++ rest)⟩ =
      .ok (cutDigits (Cursor.skipSpaces ⟨seen, gap ++ (c :: others ++ rest)⟩)).1 _ := rfl
  rw [skipped] at isSpan
  simp only [cutDigits, taken, left] at isSpan
  refine ⟨_, _, isSpan, notNil, ?_, rfl⟩
  rw [readNat?, if_neg (by simp), Token.readDigits?_of_all_isDigit allDigits]

theorem numeralText_of_span {digits : List Char} {there : Cursor}
    (spanned : span cutDigits cursor = .ok digits there) (notNil : digits ≠ [])
    (read : readNat? 10 digits = some number) : NumeralText number cursor.rest there.rest := by
  cases spanned
  let shown := cursor.rest.dropWhile isAsciiSpace
  have allDigits : (shown.takeWhile Char.isDigit).all Char.isDigit = true := List.all_takeWhile
  refine ⟨cursor.rest.takeWhile isAsciiSpace, shown.takeWhile Char.isDigit, List.all_takeWhile,
    notNil, allDigits, ?_, ?_, ?_⟩
  · intro c isHead
    change (shown.dropWhile Char.isDigit).head? = some c at isHead
    have stops := List.head?_dropWhile_not Char.isDigit shown
    rwa [isHead] at stops
  · have isShown : shown.takeWhile Char.isDigit ++ shown.dropWhile Char.isDigit = shown :=
      List.takeWhile_append_dropWhile
    calc
      cursor.rest = cursor.rest.takeWhile isAsciiSpace ++ shown :=
        List.takeWhile_append_dropWhile.symm
      _ = _ := congrArg _ isShown.symm
  · have isEmpty : ¬ (shown.takeWhile Char.isDigit).isEmpty = true := by
      rwa [List.isEmpty_iff]
    change readNat? 10 (shown.takeWhile Char.isDigit) = some number at read
    rw [readNat?, if_neg isEmpty, Token.readDigits?_of_all_isDigit allDigits] at read
    exact (Option.some.inj read).symm

theorem unambiguous_numeralText : Unambiguous NumeralText := by
  intro text number rest other tail first second
  rcases @span_of_numeralText (Cursor.start text) _ _ first with ⟨_, _, isFirst, _, read, rfl⟩
  rcases @span_of_numeralText (Cursor.start text) _ _ second with ⟨_, _, isSecond, _, isRead, rfl⟩
  rw [isFirst] at isSecond
  cases isSecond
  rw [read] at isRead
  exact ⟨Option.some.inj isRead, rfl⟩

/-- The keyword behind a slash tells the transport protocol. -/
theorem find?_of_follows {transport : Transport}
    (follows : Follows transport.keyword cursor.rest rest) :
    (Transport.all.find? fun other => cursor.at? other.keyword) = some transport := by
  rcases cursor with ⟨seen, text⟩
  rcases follows with ⟨blanks, blank, rfl⟩
  have skipped : Cursor.skipSpaces ⟨seen, blanks ++ (transport.keyword.toList ++ rest)⟩ =
      ⟨blanks.reverse ++ seen, transport.keyword.toList ++ rest⟩ := by
    rcases exists_cons_of_isVisible (isVisible_keyword transport) with
      ⟨c, others, isKeyword, visible⟩
    apply skipSpaces_of_blanks blank
    rw [isKeyword]
    rintro d ⟨rfl⟩
    exact visible
  simp only [Cursor.at?, Cursor.after?, skipped]
  cases transport <;> rfl

theorem unambiguous_portText : Unambiguous PortText := by
  intro text spec rest other tail first second
  cases first with
  | bare numeral noSlash =>
      cases second with
      | bare isNumeral _ =>
          rcases unambiguous_numeralText numeral isNumeral with ⟨rfl, rfl⟩
          exact ⟨rfl, rfl⟩
      | carried isNumeral _ =>
          rcases unambiguous_numeralText numeral isNumeral with ⟨_, rfl⟩
          exact absurd rfl noSlash
  | carried numeral follows =>
      cases second with
      | bare isNumeral noSlash =>
          rcases unambiguous_numeralText numeral isNumeral with ⟨_, rfl⟩
          exact absurd rfl noSlash
      | carried isNumeral followsToo =>
          rcases unambiguous_numeralText numeral isNumeral with ⟨rfl, isBehind⟩
          cases isBehind
          have found := @find?_of_follows (Cursor.start _) _ _ follows
          rw [@find?_of_follows (Cursor.start _) _ _ followsToo] at found
          cases found
          exact ⟨rfl, follows.unique (isVisible_keyword _) followsToo⟩

/-- Takes the transport protocol behind a number, if a slash follows. -/
def carrier (number : Nat) : Reader Endpoint := do
  let cursor ← get
  match cursor.rest with
  | '/' :: rest =>
      let behind := cursor.past ['/'] rest
      set behind
      match Transport.all.find? fun transport => behind.at? transport.keyword with
      | some transport =>
          expect transport.keyword
          return ⟨number, some transport⟩
      | none => throw .invalidPort
  | _ => return ⟨number, none⟩

theorem endpoint_eq_bind : endpoint = (span cutDigits >>= fun digits =>
    if digits.isEmpty then throw .invalidPort
    else
      match (readNat? 10 digits).filter (· ≤ Port.maxNumber) with
      | none => throw .portOutOfRange
      | some number => carrier number) :=
  rfl

theorem carrier_of_ne (noSlash : cursor.rest.head? ≠ some '/') :
    carrier number cursor = .ok ⟨number, none⟩ cursor := by
  rcases cursor with ⟨seen, rest⟩
  rw [carrier, get_bind]
  cases rest with
  | nil => rfl
  | cons c rest =>
      have differs : c ≠ '/' := fun isSlash => noSlash (congrArg some isSlash)
      simp [differs]
      rfl

theorem carrier_of_follows {transport : Transport} {behind : List Char}
    (isSlash : cursor.rest = '/' :: behind) (follows : Follows transport.keyword behind rest) :
    ∃ moved, carrier number cursor = .ok ⟨number, some transport⟩ moved ∧ moved.rest = rest := by
  let there := cursor.past ['/'] behind
  have found : (Transport.all.find? fun other => there.at? other.keyword) = some transport :=
    find?_of_follows follows
  rcases @after?_of_follows there _ _ (isVisible_keyword transport) follows with
    ⟨moved, isMoved, isRest⟩
  refine ⟨moved, ?_, isRest⟩
  rw [carrier, get_bind]
  simp only [isSlash]
  rw [set_bind, found]
  simp only [expect]
  rw [bind_assoc, get_bind, isMoved]
  rfl

/-- A port that exists is taken. -/
theorem endpoint_of_portText (written : PortText spec cursor.rest rest)
    (bounded : spec.number ≤ Port.maxNumber) :
    ∃ moved, endpoint cursor = .ok spec moved ∧ moved.rest = rest := by
  have carried : ∀ {tail : List Char}, NumeralText spec.number cursor.rest tail →
      ∃ there, endpoint cursor = carrier spec.number there ∧ there.rest = tail := by
    intro tail numeral
    rcases span_of_numeralText numeral with ⟨digits, there, spanned, notNil, read, isRest⟩
    have accepted : (readNat? 10 digits).filter (· ≤ Port.maxNumber) = some spec.number := by
      rw [read]
      exact Option.filter_some_pos (by simpa using bounded)
    refine ⟨there, ?_, isRest⟩
    rw [endpoint_eq_bind, bind_of_eq_ok spanned]
    simp only [List.isEmpty_iff, if_neg notNil, accepted]
  cases written with
  | bare numeral noSlash =>
      rcases carried numeral with ⟨there, isEndpoint, rfl⟩
      exact ⟨there, isEndpoint.trans (carrier_of_ne noSlash), rfl⟩
  | carried numeral follows =>
      rcases carried numeral with ⟨there, isEndpoint, isSlash⟩
      rw [isEndpoint]
      exact carrier_of_follows isSlash follows

theorem portText_of_carrier (numeral : NumeralText number text cursor.rest)
    (read : carrier number cursor = .ok spec moved) : PortText spec text moved.rest := by
  by_cases isSlash : cursor.rest.head? = some '/'
  · rcases List.head?_eq_some_iff.mp isSlash with ⟨behind, isRest⟩
    rw [isRest] at numeral
    rw [carrier, get_bind] at read
    simp only [isRest] at read
    rw [set_bind] at read
    cases found : Transport.all.find? fun transport =>
        (cursor.past ['/'] behind).at? transport.keyword with
    | none =>
        rw [found] at read
        cases read
    | some transport =>
        rw [found] at read
        rcases exists_of_bind_eq_ok read with ⟨_, _, expected, returned⟩
        cases returned
        exact .carried numeral (exists_of_expect_eq_ok expected)
  · rw [carrier_of_ne isSlash] at read
    cases read
    exact .bare numeral isSlash

/-- What is taken as a port is one. -/
theorem portText_of_endpoint (read : endpoint cursor = .ok spec moved) :
    PortText spec cursor.rest moved.rest := by
  rw [endpoint_eq_bind] at read
  rcases exists_of_bind_eq_ok read with ⟨digits, there, spanned, goesOn⟩
  by_cases isEmpty : digits.isEmpty = true
  · rw [if_pos isEmpty] at goesOn
    cases goesOn
  · rw [if_neg isEmpty] at goesOn
    cases accepted : (readNat? 10 digits).filter (· ≤ Port.maxNumber) with
    | none =>
        rw [accepted] at goesOn
        cases goesOn
    | some number =>
        rw [accepted] at goesOn
        have isNumber := (Option.filter_eq_some_iff.mp accepted).1
        exact portText_of_carrier
          (numeralText_of_span spanned (mt List.isEmpty_iff.mpr isEmpty) isNumber) goesOn

end

/-! ## Ports with dashes between them -/

/-- Ports with dashes between them, behind which no other dash follows. -/
def PortsText : List Endpoint → List Char → List Char → Prop :=
  Separated PortText "-" fun rest => ∀ next, ¬ Follows "-" rest next

theorem unambiguous_portsText : Unambiguous PortsText :=
  unambiguous_separated rfl unambiguous_portText fun _ next stops => stops next

/-- Takes another port if a dash follows. -/
def dashRound (taken : List Endpoint) : Reader (Round (List Endpoint)) := do
  if ← accept "-" then
    let next ← endpoint
    return .again (taken ++ [next])
  else
    return .done taken

/-- Takes ports with dashes between them behind those that have been taken. -/
def endpointsAfter (taken : List Endpoint) : Reader (List Endpoint) := do
  let next ← endpoint
  loop dashRound (taken ++ [next])

theorem endpoints_eq : endpoints = endpointsAfter [] :=
  rfl

section

variable {cursor moved : Cursor} {taken specs : List Endpoint} {text rest : List Char}

/-- A dash is followed by another port. -/
theorem loop_dashRound_of_after? {there : Cursor} (follows : cursor.after? "-" = some there) :
    loop dashRound taken cursor = endpointsAfter taken there := by
  have shorter : there.rest.length < cursor.rest.length :=
    @Follows.length_lt "-" _ _ rfl (exists_of_after?_eq_some follows)
  have accepted : dashRound taken cursor =
      (do let next ← endpoint; return Round.again (taken ++ [next])) there :=
    bind_of_eq_ok (accept_of_after?_eq_some follows)
  rw [loop, accepted, endpointsAfter]
  simp only [bind, EStateM.bind]
  cases isRead : endpoint there with
  | error cause moved => rfl
  | ok next moved =>
      have notLonger := (covers_endpoint.leadsTo isRead).length_le
      exact if_pos (Nat.lt_of_le_of_lt notLonger shorter)

/-- Ports that exist are taken one by one. -/
theorem endpointsAfter_of_portsText (written : PortsText specs text rest)
    (bounded : Bounded specs) (isText : cursor.rest = text) :
    ∃ moved, endpointsAfter taken cursor = .ok (taken ++ specs) moved ∧ moved.rest = rest := by
  induction written generalizing cursor taken with
  | @last spec text rest isPort stops =>
      subst isText
      rcases endpoint_of_portText isPort (bounded spec List.mem_cons_self) with
        ⟨there, isRead, rfl⟩
      refine ⟨there, ?_, rfl⟩
      rw [endpointsAfter, bind_of_eq_ok isRead]
      apply loop_of_done
      rw [dashRound, bind_of_eq_ok (accept_of_after?_eq_none ((after?_eq_none_iff rfl).mpr stops))]
      rfl
  | @more spec specs text middle next rest isPort follows _ ih =>
      subst isText
      rcases endpoint_of_portText isPort (bounded spec List.mem_cons_self) with
        ⟨there, isRead, rfl⟩
      rcases after?_of_follows rfl follows with ⟨behind, isBehind, isNext⟩
      have others : Bounded specs := fun found member =>
        bounded found (List.mem_cons_of_mem _ member)
      rcases @ih behind (taken ++ [spec]) others isNext with ⟨moved, areRead, isMoved⟩
      refine ⟨moved, ?_, isMoved⟩
      rw [endpointsAfter, bind_of_eq_ok isRead, loop_dashRound_of_after? isBehind, areRead,
        List.append_assoc]
      rfl

/-- What is taken as ports are ports with dashes between them. -/
theorem portsText_of_endpoints (read : endpoints cursor = .ok specs moved) :
    PortsText specs cursor.rest moved.rest := by
  rw [endpoints_eq] at read
  rcases exists_of_bind_eq_ok read with ⟨first, there, isFirst, looped⟩
  -- Behind any port, the rounds that remain take the ports that go on from it.
  have behind := loop_of_rounds (fun taken text final rest =>
    ∃ others, final = taken ++ others ∧ ∀ spec before, PortText spec before text →
      PortsText (spec :: others) before rest) ?_ ?_ looped
  · rcases behind with ⟨others, rfl, isWhole⟩
    exact isWhole first cursor.rest (portText_of_endpoint isFirst)
  · intro taken cursor final moved isRound
    rcases accept_bind_eq_ok_cases rfl isRound with ⟨there, _, _, goesOn⟩ | ⟨absent, goesOn⟩
    · rcases exists_of_bind_eq_ok goesOn with ⟨_, _, _, ends⟩
      cases ends
    · cases goesOn
      exact ⟨[], (List.append_nil _).symm, fun spec before isPort => .last isPort absent⟩
  · intro taken cursor next last isRound
    rcases accept_bind_eq_ok_cases rfl isRound with ⟨there, isDash, _, goesOn⟩ | ⟨_, goesOn⟩
    · rcases exists_of_bind_eq_ok goesOn with ⟨spec, _, isSpec, ends⟩
      cases ends
      constructor
      · have notLonger := (covers_endpoint.leadsTo isSpec).length_le
        exact Nat.lt_of_le_of_lt notLonger (isDash.length_lt rfl)
      · rintro final rest ⟨others, rfl, isWhole⟩
        refine ⟨spec :: others, List.append_assoc _ _ _, fun previous before isPort => ?_⟩
        exact .more isPort isDash (isWhole spec _ (portText_of_endpoint isSpec))
    · cases goesOn

end

/-! ## Intervals -/

/-- The ports from one number to another, ends included: each of them once, in ascending
order. -/
structure IsInterval (first last : Nat) (transport : Transport) (ports : List Port) : Prop where
  ascending : ports.Pairwise fun port next => port.number < next.number
  mem_iff : ∀ port, port ∈ ports ↔
    first ≤ port.number ∧ port.number ≤ last ∧ port.transport = transport

/-- The interval that ports with dashes between them stand for, given by its ends: a port
by itself, or two of which the second is no less than the first and no other transport
protocol than its own is given. -/
inductive Denotes : List Endpoint → Nat → Nat → Transport → Prop where
  | single {number : Nat} {transport : Transport} :
      number ≤ Port.maxNumber → Denotes [⟨number, some transport⟩] number number transport
  | range {first last : Nat} {given : Option Transport} {transport : Transport} :
      first ≤ Port.maxNumber → last ≤ Port.maxNumber → first ≤ last →
        (given = none ∨ given = some transport) →
        Denotes [⟨first, given⟩, ⟨last, some transport⟩] first last transport

/-- The ports are those that are written. -/
def StandsFor (specs : List Endpoint) (ports : List Port) : Prop :=
  ∃ first last transport, Denotes specs first last transport ∧
    IsInterval first last transport ports

section

variable {cursor moved : Cursor} {specs : List Endpoint} {first last : Nat}
  {transport : Transport} {rest : List Char}

theorem isInterval_portRange (first last : Nat) (transport : Transport) :
    IsInterval first last transport (portRange first last transport) := by
  constructor
  · exact List.pairwise_map.mpr List.pairwise_lt_range'
  · rintro ⟨number, other⟩
    rw [portRange, List.mem_map]
    constructor
    · rintro ⟨number, inRange, ⟨⟩⟩
      have below : number ≤ last := by
        rw [List.mem_range'_1] at inRange
        omega
      exact ⟨(List.mem_range'_1.mp inRange).1, below, rfl⟩
    · rintro ⟨above, below, rfl⟩
      refine ⟨number, ?_, rfl⟩
      rw [List.mem_range'_1]
      dsimp only at above below
      omega

theorem portRange_self (number : Nat) (transport : Transport) :
    portRange number number transport = [⟨number, transport⟩] := by
  simp [portRange]

theorem Denotes.bounded (denotes : Denotes specs first last transport) : Bounded specs := by
  cases denotes with
  | single isNumber =>
      intro spec member
      cases List.mem_singleton.mp member
      exact isNumber
  | range isFirst isLast _ _ =>
      intro spec member
      rcases List.mem_cons.mp member with rfl | isSecond
      · exact isFirst
      · cases List.mem_singleton.mp isSecond
        exact isLast

theorem portsOf_of_denotes (denotes : Denotes specs first last transport) :
    portsOf specs = .ok (portRange first last transport) := by
  cases denotes with
  | single _ => rw [portRange_self]; rfl
  | range _ _ ascends isGiven =>
      rcases isGiven with rfl | rfl <;> simp [portsOf, Nat.not_lt.mpr ascends]

theorem denotes_of_portsOf {found : List Port} (bounded : Bounded specs)
    (isFound : portsOf specs = .ok found) :
    ∃ first last transport, Denotes specs first last transport ∧
      found = portRange first last transport := by
  rcases specs with _ | ⟨⟨first, given⟩, _ | ⟨⟨last, carried⟩, _ | ⟨third, others⟩⟩⟩
  · cases isFound
  · cases given with
    | none => cases isFound
    | some transport =>
        cases isFound
        exact ⟨first, first, transport, .single (bounded _ List.mem_cons_self),
          (portRange_self first transport).symm⟩
  · cases carried with
    | none =>
        -- The second port of a range has to say which transport protocol it belongs to.
        cases given with
        | none => cases isFound
        | some other => cases isFound
    | some transport =>
        have isGiven : given = none ∨ given = some transport := by
          cases given with
          | none => exact .inl rfl
          | some other =>
              by_cases differs : transport = other
              · exact .inr (congrArg some differs.symm)
              · simp [portsOf, differs] at isFound
        have ascends : first ≤ last := by
          apply Nat.le_of_not_lt
          intro descends
          rcases isGiven with rfl | rfl <;> simp [portsOf, descends] at isFound
        have denotes : Denotes _ first last transport := .range
          (bounded _ List.mem_cons_self) (bounded ⟨last, some transport⟩ (by simp)) ascends isGiven
        rw [portsOf_of_denotes denotes] at isFound
        cases isFound
        exact ⟨first, last, transport, denotes, rfl⟩
  · unfold portsOf at isFound
    split at isFound
    · cases isFound
    · split at isFound
      · cases isFound
      · cases isFound

/-- Ports that stand for an interval are taken as the interval. -/
theorem ports_of_denotes (written : PortsText specs cursor.rest rest)
    (denotes : Denotes specs first last transport) :
    ∃ moved, ports cursor = .ok (portRange first last transport) moved ∧ moved.rest = rest := by
  rcases @endpointsAfter_of_portsText _ [] _ _ _ written denotes.bounded rfl with
    ⟨moved, read, isRest⟩
  refine ⟨moved, ?_, isRest⟩
  rw [ports, endpoints_eq, bind_of_eq_ok read, List.nil_append, portsOf_of_denotes denotes]
  rfl

/-- What is taken as ports is an interval for which they stand. -/
theorem standsFor_of_ports {found : List Port} (read : ports cursor = .ok found moved) :
    ∃ specs, PortsText specs cursor.rest moved.rest ∧ StandsFor specs found := by
  rcases exists_of_bind_eq_ok read with ⟨specs, there, areRead, returned⟩
  cases isFound : portsOf specs with
  | error cause =>
      rw [isFound] at returned
      cases returned
  | ok taken =>
      rw [isFound] at returned
      cases returned
      have bounded := @returns_endpoints Anywhere cursor specs moved trivial areRead
      rcases denotes_of_portsOf bounded isFound with ⟨first, last, transport, denotes, rfl⟩
      exact ⟨specs, portsText_of_endpoints areRead, first, last, transport, denotes,
        isInterval_portRange first last transport⟩

/-- Ports are taken exactly if they stand for an interval. -/
theorem exists_ports_eq_ok_iff (written : PortsText specs cursor.rest rest) :
    (∃ found moved, ports cursor = .ok found moved) ↔
      ∃ first last transport, Denotes specs first last transport := by
  constructor
  · rintro ⟨found, moved, read⟩
    rcases standsFor_of_ports read with ⟨others, isWritten, first, last, transport, denotes, _⟩
    rcases unambiguous_portsText written isWritten with ⟨rfl, _⟩
    exact ⟨first, last, transport, denotes⟩
  · rintro ⟨first, last, transport, denotes⟩
    rcases ports_of_denotes written denotes with ⟨moved, read, _⟩
    exact ⟨_, moved, read⟩

end

end AnalyzerGlue.Evt.Reader
