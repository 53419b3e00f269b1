import AnalyzerGlue.Proofs.Evt.Canonical
import AnalyzerGlue.Proofs.Evt.Returning

/-!
# Statements print and parse back

Whatever text a statement is read from, the statement can be written: its ids are
whole, its arguments are balanced and its numbers are in range.  So the canonical text
of every statement that is read is read as the same statement.
-/

namespace AnalyzerGlue.Evt.Statement

open Reader Text

variable {α : Type} {before : Cursor → Prop} {token : String}

/-! ## Tokens and names -/

section

variable {first other : Reader α} {behind : α → Cursor → Prop}

/-- Behind a token that is accepted one reader goes on, with what is known unless the
text is at its end, and else another one. -/
theorem returns_ifAccepted_given {fact : Prop} (notEmpty : token.toList ≠ [])
    (known : ∀ cursor, before cursor → cursor.rest ≠ [] → fact)
    (whenTrue : fact → Returns (Behind token) first behind)
    (whenFalse : Returns before other behind) :
    Returns before (do if ← accept token then first else other) behind := by
  refine .bind (returns_accept notEmpty known) fun found => ?_
  cases found with
  | true => exact fun cursor value moved known => whenTrue known.1 cursor value moved known.2
  | false => exact whenFalse

theorem returns_ifAccepted (notEmpty : token.toList ≠ [])
    (whenTrue : Returns (Behind token) first behind) (whenFalse : Returns before other behind) :
    Returns before (do if ← accept token then first else other) behind :=
  returns_ifAccepted_given notEmpty (fun _ _ _ => trivial) (fun _ => whenTrue) whenFalse

theorem returns_afterToken_given {fact : Prop} (notEmpty : token.toList ≠ [])
    (known : ∀ cursor, before cursor → cursor.rest ≠ [] → fact)
    (reads : fact → Returns (Behind token) first behind) :
    Returns before (do expect token; first) behind :=
  .bind (returns_expect notEmpty known) fun _ cursor value moved known =>
    reads known.1 cursor value moved known.2

theorem returns_afterToken (notEmpty : token.toList ≠ [])
    (reads : Returns (Behind token) first behind) :
    Returns before (do expect token; first) behind :=
  returns_afterToken_given notEmpty (fun _ _ _ => trivial) fun _ => reads

end

/-- What is made of a name behind a token. -/
theorem returns_name {result : QualName → α} {property : α → Prop}
    (noColon : token.toList.getLast? ≠ some ':')
    (holds : ∀ name, IsId name.text.toList → property (result name)) :
    Returns (Behind token) (do return result (← ident)) fun value _ => property value :=
  .bind (returns_ident noColon) fun name => .pure fun _ isId => holds name isId

/-- What is made of the name of a unit. -/
theorem returns_withUnit {result : QualName → α} {property : α → Prop}
    (holds : ∀ unit, IsId unit.text.toList → property (result unit)) :
    Returns before (do expect "with"; return result (← ident)) fun value _ => property value :=
  returns_afterToken (by simp) (returns_name (by decide) holds)

/-- What each clause leads to is known behind all of them, if it is enough for the
next clause. -/
theorem returns_clauses {clause : α → Reader α} {needed reached : α → Prop}
    (leads : ∀ analyzer, needed analyzer →
      Returns Anywhere (clause analyzer) fun changed _ => reached changed)
    (goesOn : ∀ analyzer, reached analyzer → needed analyzer) {start : α} (holds : needed start) :
    Returns before (clauses clause start) fun changed _ => reached changed := by
  refine .loop (fun analyzer _ => needed analyzer) (fun _ _ => holds) fun analyzer => ?_
  refine .given fun known => .bind (leads analyzer known) fun changed => .given fun led => ?_
  refine .bind (.anything _) fun _ => .ite (fun _ => .pure fun _ _ => led) fun _ => ?_
  exact .bind (.anything _) fun _ => .pure fun _ _ => ⟨goesOn changed led, led⟩

/-! ## Protocol analyzers -/

section Protocol

variable {analyzer : ProtocolAnalyzer}

theorem returns_directions (readable : IsProtocol analyzer) :
    Returns before (directions analyzer) fun changed _ => IsProtocol changed := by
  rcases readable with ⟨isName, isOriginator, isResponder, bounded, isReplaced⟩
  refine returns_ifAccepted (by simp) ?_ (returns_ifAccepted (by simp) ?_ ?_)
  · refine returns_withUnit fun unit isId => ⟨isName, ?_, isResponder, bounded, isReplaced⟩
    rintro _ ⟨rfl⟩
    exact isId
  · refine returns_withUnit fun unit isId => ⟨isName, isOriginator, ?_, bounded, isReplaced⟩
    rintro _ ⟨rfl⟩
    exact isId
  · refine .bind (.anything _) fun _ => .ite (fun _ => ?_) fun _ => .throw _
    refine returns_withUnit fun unit isId => ⟨isName, ?_, ?_, bounded, isReplaced⟩
    all_goals
      rintro _ ⟨rfl⟩
      exact isId

theorem returns_portList :
    Returns before portList fun taken _ => ∀ port ∈ taken, port.number ≤ Port.maxNumber := by
  refine .bind (.anything _) fun _ => .loop
    (fun taken _ => ∀ port ∈ taken, port.number ≤ Port.maxNumber) (by simp) fun taken => ?_
  refine .given fun bounded => .bind returns_ports fun more => .given fun boundedMore => ?_
  have boundedAll : ∀ port ∈ taken ++ more, port.number ≤ Port.maxNumber :=
    List.forall_mem_append.mpr ⟨bounded, boundedMore⟩
  refine .bind (.anything _) fun _ => .ite (fun _ => .pure fun _ _ => boundedAll) fun _ => ?_
  exact .bind (.anything _) fun _ => .pure fun _ _ => ⟨boundedAll, boundedAll⟩

theorem returns_protocolClause (readable : IsProtocol analyzer) :
    Returns before (protocolClause analyzer) fun changed _ => IsProtocol changed := by
  have addPorts : ∀ more : List Port, (∀ port ∈ more, port.number ≤ Port.maxNumber) →
      IsProtocol { analyzer with ports := analyzer.ports ++ more } := fun more boundedMore =>
    { readable with ports := List.forall_mem_append.mpr ⟨readable.ports, boundedMore⟩ }
  refine returns_ifAccepted (by simp) (returns_directions readable) ?_
  refine returns_ifAccepted (by simp) ?_ (returns_ifAccepted (by simp) ?_
    (returns_ifAccepted (by simp) ?_ (.throw _)))
  · exact .bind returns_portList fun more => .pure fun _ => addPorts more
  · exact .bind returns_ports fun more => .pure fun _ => addPorts more
  · refine returns_name (by decide) fun name isId => { readable with replaces := ?_ }
    rintro _ ⟨rfl⟩
    exact isId

theorem returns_protocolAnalyzer (location : Location) :
    Returns before (protocolAnalyzer location) fun analyzer _ =>
      IsProtocol analyzer ∧ (analyzer.originator.isSome ∨ analyzer.responder.isSome) := by
  refine .bind (.anything _) fun _ => returns_afterToken (by simp) ?_
  refine .bind (returns_ident (by decide)) fun name => .given fun isName => ?_
  refine .bind (.anything _) fun _ => .bind (.anything _) fun carrier => ?_
  refine returns_afterToken (by simp) ?_
  refine .bind (@returns_clauses _ _ _ IsProtocol IsProtocol
    (fun _ => returns_protocolClause) (fun _ => id) _ ?_) fun analyzer => ?_
  · exact ⟨isName, by simp, by simp, by simp, by simp⟩
  refine .given fun readable => .ite (fun _ => .throw _) fun parses => .pure fun _ _ => ?_
  cases isOriginator : analyzer.originator with
  | some unit => exact ⟨readable, .inl rfl⟩
  | none =>
      cases isResponder : analyzer.responder with
      | some unit => exact ⟨readable, .inr rfl⟩
      | none => exact absurd (by simp [isOriginator, isResponder]) parses

end Protocol

/-! ## File and packet analyzers -/

section File

variable {analyzer : FileAnalyzer}

theorem returns_fileClause (readable : IsFile analyzer) :
    Returns before (fileClause analyzer) fun changed _ =>
      IsFile changed ∧ changed.clauseTexts ≠ [] := by
  refine returns_ifAccepted (by simp) ?_ (returns_ifAccepted (by simp) ?_
    (returns_ifAccepted (by simp) ?_ (.throw _)))
  · refine returns_withUnit fun unit isId => ⟨{ readable with unit := ?_ }, ?_⟩
    · rintro _ ⟨rfl⟩
      exact isId
    · simp [FileAnalyzer.clauseTexts, nameClause]
  · refine .bind (returns_wordUpTo _) fun mime => .pure fun _ isWord => ⟨{ readable with
      mimeTypes := List.forall_mem_append.mpr ⟨readable.mimeTypes, by simpa using isWord⟩ }, ?_⟩
    simp [FileAnalyzer.clauseTexts]
  · refine returns_name (by decide) fun name isId => ⟨{ readable with replaces := ?_ }, ?_⟩
    · rintro _ ⟨rfl⟩
      exact isId
    · simp [FileAnalyzer.clauseTexts, nameClause]

theorem returns_fileAnalyzer (location : Location) :
    Returns before (fileAnalyzer location) fun analyzer _ =>
      IsFile analyzer ∧ analyzer.clauseTexts ≠ [] := by
  refine .bind (.anything _) fun _ => returns_afterToken (by simp) ?_
  refine .bind (returns_ident (by decide)) fun name => .given fun isName => ?_
  refine returns_afterToken (by simp) ?_
  refine @returns_clauses _ _ _ IsFile _ (fun _ => returns_fileClause) (fun _ => And.left) _ ?_
  exact ⟨isName, by simp, by simp, by simp⟩

end File

section Packet

variable {version : Nat} {analyzer : PacketAnalyzer}

theorem returns_packetClause (readable : IsPacket version analyzer) :
    Returns before (packetClause version analyzer) fun changed _ =>
      IsPacket version changed ∧ changed.clauseTexts ≠ [] := by
  refine returns_ifAccepted (by simp) ?_ (.bind (.anything _) fun _ => .ite (fun _ => ?_)
    fun _ => .throw _)
  · refine returns_withUnit fun unit isId => ⟨{ readable with unit := ?_ }, ?_⟩
    · rintro _ ⟨rfl⟩
      exact isId
    · simp [PacketAnalyzer.clauseTexts, nameClause]
  · refine .ite (fun _ => .throw _) fun recent => returns_afterToken (by simp) ?_
    refine returns_name (by decide) fun name isId => ⟨{ readable with replaces := ?_ }, ?_⟩
    · rintro _ ⟨rfl⟩
      exact ⟨Nat.not_lt.mp recent, isId⟩
    · simp [PacketAnalyzer.clauseTexts, nameClause]

theorem returns_packetAnalyzer (location : Location) :
    Returns before (packetAnalyzer location version) fun analyzer _ =>
      IsPacket version analyzer ∧ analyzer.clauseTexts ≠ [] := by
  refine .bind (.anything _) fun _ => returns_afterToken (by simp) ?_
  refine .bind (returns_ident (by decide)) fun name => .given fun isName => ?_
  refine returns_afterToken (by simp) ?_
  refine @returns_clauses _ _ _ (IsPacket version) _ (fun _ => returns_packetClause)
    (fun _ => And.left) _ ?_
  exact ⟨isName, by simp, by simp⟩

end Packet

/-! ## Events -/

theorem returns_condition :
    Returns before condition fun found _ => ∀ text ∈ found, IsArgument text.toList := by
  refine returns_ifAccepted (by simp) ?_ (.pure fun _ _ => by simp)
  refine .bind (.anything _) fun _ => .bind returns_expr fun text => ?_
  refine returns_afterToken_given (by simp) (fun _ known => known) fun isArgument => ?_
  refine .pure fun _ _ => ?_
  rintro _ ⟨rfl⟩
  exact isArgument

/-- Arguments are balanced unless the text is at its end. -/
theorem returns_arguments :
    Returns before arguments fun taken moved =>
      moved.rest ≠ [] → ∀ text ∈ taken, IsArgument text.toList := by
  refine returns_ifAccepted (by simp) (.pure fun _ _ _ => by simp) ?_
  refine .bind returns_expr fun first => .loop (fun taken moved =>
    moved.rest ≠ [] → ∀ text ∈ taken, IsArgument text.toList) ?_ fun taken => ?_
  · intro cursor known notEnd text member
    cases List.mem_singleton.mp member
    exact known notEnd
  refine returns_ifAccepted_given (by simp) (fun _ known => known) (fun areArguments => ?_) ?_
  · exact .pure fun _ _ _ => areArguments
  refine returns_afterToken_given (by simp) (fun _ known => known) fun areArguments => ?_
  refine .bind returns_expr fun next => .pure fun cursor known => ?_
  have all : cursor.rest ≠ [] → ∀ text ∈ taken ++ [next], IsArgument text.toList := fun notEnd =>
    List.forall_mem_append.mpr ⟨areArguments, by simpa using known notEnd⟩
  exact ⟨all, all⟩

/-- The priority is in range, and what is known unless the text is at its end is kept. -/
theorem returns_priority {fact : Prop} :
    Returns (fun cursor => cursor.rest ≠ [] → fact) priority fun value moved =>
      (minSigned ≤ value ∧ value ≤ maxSigned) ∧ (moved.rest ≠ [] → fact) := by
  refine returns_ifAccepted_given (by simp) (fun _ known => known) (fun holds => ?_) ?_
  · refine .bind (.anything _) fun _ cursor value moved known read => ⟨?_, fun _ => holds⟩
    exact returns_integer cursor value moved known read
  · exact .pure fun _ known => ⟨by decide, known⟩

theorem returns_eventDecl (location : Location) :
    Returns before (eventDecl location) fun event _ => IsEvent event := by
  refine returns_afterToken (by simp) (.bind (returns_ident (by decide)) fun path => ?_)
  refine .given fun isPath => .bind returns_condition fun condition => ?_
  refine .given fun isCondition => .bind (.anything _) fun _ => returns_afterToken (by simp) ?_
  refine .bind (returns_ident (by decide)) fun name => .given fun isName => ?_
  refine .bind (.anything _) fun _ => .bind returns_arguments fun exprs => ?_
  refine .bind returns_priority fun priority => ?_
  refine returns_afterToken_given (by simp)
    (fun _ known notEnd => And.intro known.1 (known.2 notEnd)) fun ⟨inRange, areArguments⟩ => ?_
  refine .bind (.anything _) fun _ => .bind (.anything _) fun _ => .ite (fun _ => ?_)
    fun _ => .throw _
  exact .pure fun _ _ => ⟨isPath, isCondition, isName, areArguments, inRange, rfl, rfl, rfl⟩

/-! ## Imports and exports -/

theorem returns_importDecl : Returns before importDecl fun decl _ => IsImport decl := by
  refine returns_afterToken (by simp) (.bind (returns_ident (by decide)) fun name => ?_)
  refine .given fun isName => returns_ifAccepted (by simp) ?_ (.pure fun _ _ => ⟨isName, by simp⟩)
  refine .bind (returns_wordUpTo _) fun path => .pure fun _ isWord => ⟨isName, ?_⟩
  rintro _ ⟨rfl⟩
  exact isWord

theorem returns_exportDecl (location : Location) :
    Returns before (exportDecl location) fun decl _ => IsId decl.id.text.toList := by
  refine returns_afterToken (by simp) (.bind (returns_ident (by decide)) fun name => ?_)
  exact .given fun isName => .bind (.anything _) fun _ => .pure fun _ _ => isName

/-! ## Statements -/

/-- Every statement that is read can be written. -/
theorem returns_reader (location : Location) (version : Nat) :
    Returns before (reader location version) fun statement _ => IsWritable version statement := by
  refine .bind (.anything _) fun _ => .ite (fun _ => ?_) fun _ => ?_
  · exact .bind (returns_protocolAnalyzer location) fun _ => .pure fun _ => id
  refine .bind (.anything _) fun _ => .ite (fun _ => ?_) fun _ => ?_
  · exact .bind (returns_fileAnalyzer location) fun _ => .pure fun _ => id
  refine .bind (.anything _) fun _ => .ite (fun _ => ?_) fun _ => ?_
  · exact .bind (returns_packetAnalyzer location) fun _ => .pure fun _ => id
  refine .bind (.anything _) fun _ => .ite (fun _ => ?_) fun _ => ?_
  · exact .bind (returns_eventDecl location) fun _ => .pure fun _ => id
  refine .bind (.anything _) fun _ => .ite (fun _ => ?_) fun _ => ?_
  · exact .bind returns_importDecl fun _ => .pure fun _ => id
  refine .bind (.anything _) fun _ => .ite (fun _ => ?_) fun _ => .throw _
  exact .bind (returns_exportDecl location) fun _ => .pure fun _ => id

/-- Statements print and parse back: from the canonical text of a statement that is
read from any text, the same statement is read. -/
theorem parse_toList_text {chunk : List Char} {location : Location} {version : Nat}
    {statement : Statement} (read : parse chunk location version = .ok statement) :
    parse statement.text.toList location version = .ok statement := by
  have writable : IsWritable version statement := by
    unfold parse run at read
    split at read
    · rename_i isRead
      cases read
      exact @returns_reader Anywhere location version _ _ _ trivial isRead
    · cases read
  rcases takes_reader writable (eq_location_of_parse read) with ⟨body, rest, isText, reads⟩
  rw [parse, run, Cursor.start, isText, reads]

/-- A percent sign in an id, a parenthesis in a string and white space are written in
another way than they were read. -/
theorem parse_toList_text_event :
    let location : Location := ⟨⟨"a.evt"⟩, 3⟩
    let statement : Statement := .event ⟨⟨"A::B::0x25_done"⟩, some "x[1]==\")\"", ⟨"e::f"⟩,
      ["$conn", "g(\",\", b)"], 5, location, none, none, none⟩
    let chunk := "on A::B::%done if(x[1]==\")\")->event e::f( $conn , g(\",\", b) )&priority = +5;"
    parse chunk.toList location 0 = .ok statement ∧
      statement.text = "on A::B::0x25_done if (x[1]==\")\") -> event e::f($conn, g(\",\", b)) " ++
        "&priority=5;" ∧
      parse statement.text.toList location 0 = .ok statement := by
  have read : parse
      "on A::B::%done if(x[1]==\")\")->event e::f( $conn , g(\",\", b) )&priority = +5;".toList
      ⟨⟨"a.evt"⟩, 3⟩ 0 = .ok (.event ⟨⟨"A::B::0x25_done"⟩, some "x[1]==\")\"", ⟨"e::f"⟩,
        ["$conn", "g(\",\", b)"], 5, ⟨⟨"a.evt"⟩, 3⟩, none, none, none⟩) := by
    with_unfolding_all rfl
  have isText : text (.event ⟨⟨"A::B::0x25_done"⟩, some "x[1]==\")\"", ⟨"e::f"⟩,
      ["$conn", "g(\",\", b)"], 5, ⟨⟨"a.evt"⟩, 3⟩, none, none, none⟩) =
      "on A::B::0x25_done if (x[1]==\")\") -> event e::f($conn, g(\",\", b)) " ++
        "&priority=5;" := by
    decide +kernel
  intro location statement chunk
  exact ⟨read, isText, parse_toList_text read⟩

end AnalyzerGlue.Evt.Statement
