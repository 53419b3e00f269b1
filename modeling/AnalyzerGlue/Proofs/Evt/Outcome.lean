import AnalyzerGlue.Evt.Statement

/-!
# Outcomes of readers

`Ensures` says what a reader returns, if it returns something, and that it fails
with an error of its own otherwise: the end of the source is noticed by the
scanner alone.  With it each statement is shown to carry the location that it is
read with.
-/

namespace AnalyzerGlue.Evt

namespace Reader

/-- Readers that return values with a property or fail, and never because the
source ends. -/
def Ensures {α : Type} (reader : Reader α) (property : α → Prop) : Prop :=
  ∀ cursor, match reader cursor with
    | .ok value _ => property value
    | .error cause _ => cause ≠ .unexpectedEnd

namespace Ensures

variable {α β : Type} {first : Reader α} {property : α → Prop}

theorem pure {value : α} (holds : property value) : Ensures (pure value) property :=
  fun _ => holds

theorem throw {cause : EvtError} (known : cause ≠ .unexpectedEnd) :
    Ensures (throw cause) property :=
  fun _ => known

theorem bind {second : α → Reader β} {result : β → Prop} (before : Ensures first property)
    (behind : ∀ value, property value → Ensures (second value) result) :
    Ensures (first >>= second) result := by
  intro cursor
  have outcome := before cursor
  show match EStateM.bind first second cursor with
    | .ok value _ => result value
    | .error cause _ => cause ≠ .unexpectedEnd
  unfold EStateM.bind
  cases read : first cursor with
  | ok value moved =>
      rw [read] at outcome
      exact behind value outcome moved
  | error cause moved =>
      rw [read] at outcome
      exact outcome

theorem ite {condition : Prop} [Decidable condition] {other : Reader α}
    (whenTrue : Ensures first property) (whenFalse : Ensures other property) :
    Ensures (if condition then first else other) property := by
  split
  · exact whenTrue
  · exact whenFalse

/-- What each round keeps holds at the end of a loop. -/
theorem loop {round : α → Reader (Round α)}
    (keeps : ∀ state, property state → Ensures (round state) fun outcome =>
      match outcome with
      | .again next => property next
      | .done final => property final)
    {state : α} (holds : property state) : Ensures (Reader.loop round state) property := by
  intro cursor
  fun_induction Reader.loop round state cursor with
  | case1 state cursor cause moved failed =>
      have outcome := keeps state holds cursor
      rw [failed] at outcome
      exact outcome
  | case2 state cursor final moved read =>
      have outcome := keeps state holds cursor
      rw [read] at outcome
      exact outcome
  | case3 state cursor next moved read _ ih =>
      have outcome := keeps state holds cursor
      rw [read] at outcome
      exact ih outcome
  | case4 state cursor next moved read _ =>
      have outcome := keeps state holds cursor
      rw [read] at outcome
      exact outcome

end Ensures

/-! ## Readers of parts -/

/-- Readers that fail with errors of their own. -/
def Clean {α : Type} (reader : Reader α) : Prop :=
  Ensures reader fun _ => True

theorem clean_get : Clean get :=
  fun _ => trivial

theorem clean_set (cursor : Cursor) : Clean (set cursor) :=
  fun _ => trivial

theorem clean_spaces : Clean spaces :=
  fun _ => trivial

theorem clean_sees (token : String) : Clean (sees token) :=
  fun _ => trivial

theorem clean_expect (token : String) : Clean (expect token) := by
  refine .bind clean_get fun cursor _ => ?_
  split
  · exact clean_set _
  · exact .throw (by simp)

theorem clean_accept (token : String) : Clean (accept token) := by
  refine .bind clean_get fun cursor _ => ?_
  split
  · exact .bind (clean_set _) fun _ _ => .pure trivial
  · exact .pure trivial

theorem clean_span (cut : Cursor → List Char × List Char) : Clean (span cut) :=
  .bind clean_spaces fun _ _ => .bind clean_get fun _ _ =>
    .bind (clean_set _) fun _ _ => .pure trivial

theorem clean_ident : Clean ident := by
  refine .bind (clean_span _) fun taken _ => ?_
  split
  · exact .throw (by simp)
  · exact .pure trivial

theorem clean_wordUpTo (ends : Char → Bool) : Clean (wordUpTo ends) := by
  refine .bind (clean_span _) fun taken _ => ?_
  split
  · exact .throw (by simp)
  · exact .pure trivial

theorem clean_integer : Clean integer := by
  refine .bind clean_spaces fun _ _ => .bind clean_get fun cursor _ => ?_
  refine .ite (.throw (by simp)) (.bind (clean_set _) fun _ _ => ?_)
  split
  · exact .pure trivial
  · exact .throw (by simp)

theorem clean_endpoint : Clean endpoint := by
  refine .bind (clean_span _) fun digits _ => .ite (.throw (by simp)) ?_
  split
  · exact .throw (by simp)
  · refine .bind clean_get fun cursor _ => ?_
    split
    · refine .bind (clean_set _) fun _ _ => ?_
      split
      · exact .bind (clean_expect _) fun _ _ => .pure trivial
      · exact .throw (by simp)
    · exact .pure trivial

theorem clean_endpoints : Clean endpoints := by
  refine .bind clean_endpoint fun first _ => .loop (fun taken _ => ?_) trivial
  refine .bind (clean_accept _) fun more _ => .ite ?_ (.pure trivial)
  exact .bind clean_endpoint fun next _ => .pure trivial

theorem ne_unexpectedEnd_of_portsOf {endpoints : List Endpoint} {cause : EvtError}
    (failed : portsOf endpoints = .error cause) : cause ≠ .unexpectedEnd := by
  unfold portsOf at failed
  split at failed
  · cases failed
    simp
  · split at failed
    · cases failed
      simp
    · split at failed
      · cases failed
      · split at failed
        · cases failed
          simp
        · split at failed
          · cases failed
            simp
          · cases failed
      · cases failed
        simp

theorem clean_ports : Clean ports := by
  refine .bind clean_endpoints fun taken _ => ?_
  split
  · exact .pure trivial
  · rename_i failed
    exact .throw (ne_unexpectedEnd_of_portsOf failed)

theorem eq_error_of_extend {c : Char} {result : Except EvtError (List Char × List Char)}
    {cause : EvtError} (failed : cutExpr.extend c result = .error cause) :
    result = .error cause := by
  cases result with
  | error => simpa [cutExpr.extend, Except.map] using failed
  | ok => cases failed

theorem ne_unexpectedEnd_of_cutExpr {inside : Inside} {level : Nat} {text : List Char}
    {cause : EvtError} (failed : cutExpr inside level text = .error cause) :
    cause ≠ .unexpectedEnd := by
  fun_induction cutExpr inside level text with
  | case1 | case8 => cases failed
  | case2 | case9 =>
      cases failed
      simp
  | case3 _ _ _ ih | case4 _ _ ih | case5 _ _ _ ih | case6 _ _ _ _ _ ih | case7 _ _ _ _ ih
  | case10 _ _ _ _ _ _ ih | case11 _ _ _ _ _ ih | case12 _ _ _ _ _ _ _ ih =>
      exact ih (eq_error_of_extend failed)

theorem clean_expr : Clean expr := by
  refine .bind clean_spaces fun _ _ => .bind clean_get fun cursor _ => ?_
  split
  · rename_i failed
    exact .throw (ne_unexpectedEnd_of_cutExpr failed)
  · refine .bind (clean_set _) fun _ _ => ?_
    split
    · exact .throw (by simp)
    · exact .pure trivial

end Reader

/-! ## Statements -/

namespace Statement

open Reader

/-- What each clause keeps holds behind all clauses. -/
theorem ensures_clauses {α : Type} {clause : α → Reader α} {property : α → Prop}
    (keeps : ∀ analyzer, property analyzer → Ensures (clause analyzer) property) {start : α}
    (holds : property start) : Ensures (clauses clause start) property := by
  refine .loop (fun analyzer held => ?_) holds
  refine .bind (keeps analyzer held) fun changed kept => ?_
  refine .bind (clean_sees _) fun _ _ => .ite (.pure kept) ?_
  exact .bind (clean_expect _) fun _ _ => .pure kept

section

variable {location : Location}

theorem ensures_directions {analyzer : ProtocolAnalyzer} (located : analyzer.location = location) :
    Ensures (directions analyzer) fun changed => changed.location = location := by
  refine .bind (clean_accept _) fun _ _ => .ite ?_ (.bind (clean_accept _) fun _ _ => .ite ?_
    (.bind (clean_sees _) fun _ _ => .ite ?_ (.throw (by simp))))
  all_goals
    exact .bind (clean_expect _) fun _ _ => .bind clean_ident fun _ _ => .pure located

theorem clean_portList : Clean portList := by
  refine .bind (clean_expect _) fun _ _ => .loop (fun taken _ => ?_) trivial
  refine .bind clean_ports fun more _ => .bind (clean_accept _) fun _ _ => .ite (.pure trivial) ?_
  exact .bind (clean_expect _) fun _ _ => .pure trivial

theorem ensures_protocolClause {analyzer : ProtocolAnalyzer}
    (located : analyzer.location = location) :
    Ensures (protocolClause analyzer) fun changed => changed.location = location := by
  refine .bind (clean_accept _) fun _ _ => .ite (ensures_directions located) ?_
  refine .bind (clean_accept _) fun _ _ => .ite ?_ ?_
  · exact .bind clean_portList fun _ _ => .pure located
  refine .bind (clean_accept _) fun _ _ => .ite ?_ ?_
  · exact .bind clean_ports fun _ _ => .pure located
  refine .bind (clean_accept _) fun _ _ => .ite ?_ (.throw (by simp))
  exact .bind clean_ident fun _ _ => .pure located

theorem clean_transport : Clean transport := by
  refine .bind clean_ident fun name _ => ?_
  extract_lets keyword
  split
  · exact .pure trivial
  · exact .throw (by simp)

theorem ensures_protocolAnalyzer (location : Location) :
    Ensures (protocolAnalyzer location) fun analyzer => analyzer.location = location := by
  refine .bind (clean_expect _) fun _ _ => .bind (clean_expect _) fun _ _ => ?_
  refine .bind clean_ident fun _ _ => .bind (clean_expect _) fun _ _ => ?_
  refine .bind clean_transport fun _ _ => .bind (clean_expect _) fun _ _ => ?_
  refine .bind (ensures_clauses (fun _ => ensures_protocolClause) rfl) fun analyzer located => ?_
  exact .ite (.throw (by simp)) (.pure located)

theorem ensures_fileClause {analyzer : FileAnalyzer} (located : analyzer.location = location) :
    Ensures (fileClause analyzer) fun changed => changed.location = location := by
  refine .bind (clean_accept _) fun _ _ => .ite ?_ ?_
  · exact .bind (clean_expect _) fun _ _ => .bind clean_ident fun _ _ => .pure located
  refine .bind (clean_accept _) fun _ _ => .ite ?_ ?_
  · exact .bind (clean_wordUpTo _) fun _ _ => .pure located
  refine .bind (clean_accept _) fun _ _ => .ite ?_ (.throw (by simp))
  exact .bind clean_ident fun _ _ => .pure located

theorem ensures_fileAnalyzer (location : Location) :
    Ensures (fileAnalyzer location) fun analyzer => analyzer.location = location := by
  refine .bind (clean_expect _) fun _ _ => .bind (clean_expect _) fun _ _ => ?_
  refine .bind clean_ident fun _ _ => .bind (clean_expect _) fun _ _ => ?_
  exact ensures_clauses (fun _ => ensures_fileClause) rfl

theorem ensures_packetClause {version : Nat} {analyzer : PacketAnalyzer}
    (located : analyzer.location = location) :
    Ensures (packetClause version analyzer) fun changed => changed.location = location := by
  refine .bind (clean_accept _) fun _ _ => .ite ?_ ?_
  · exact .bind (clean_expect _) fun _ _ => .bind clean_ident fun _ _ => .pure located
  refine .bind (clean_sees _) fun _ _ => .ite (.ite (.throw (by simp)) ?_) (.throw (by simp))
  exact .bind (clean_expect _) fun _ _ => .bind clean_ident fun _ _ => .pure located

theorem ensures_packetAnalyzer (location : Location) (version : Nat) :
    Ensures (packetAnalyzer location version) fun analyzer => analyzer.location = location := by
  refine .bind (clean_expect _) fun _ _ => .bind (clean_expect _) fun _ _ => ?_
  refine .bind clean_ident fun _ _ => .bind (clean_expect _) fun _ _ => ?_
  exact ensures_clauses (fun _ => ensures_packetClause) rfl

theorem clean_condition : Clean condition := by
  refine .bind (clean_accept _) fun _ _ => .ite ?_ (.pure trivial)
  exact .bind (clean_expect _) fun _ _ => .bind clean_expr fun _ _ =>
    .bind (clean_expect _) fun _ _ => .pure trivial

theorem clean_arguments : Clean arguments := by
  refine .bind (clean_accept _) fun _ _ => .ite (.pure trivial) ?_
  refine .bind clean_expr fun first _ => .loop (fun taken _ => ?_) trivial
  refine .bind (clean_accept _) fun _ _ => .ite (.pure trivial) ?_
  exact .bind (clean_expect _) fun _ _ => .bind clean_expr fun _ _ => .pure trivial

theorem clean_priority : Clean priority := by
  refine .bind (clean_accept _) fun _ _ => .ite ?_ (.pure trivial)
  exact .bind (clean_expect _) fun _ _ => clean_integer

theorem ensures_eventDecl (location : Location) :
    Ensures (eventDecl location) fun event => event.location = location := by
  refine .bind (clean_expect _) fun _ _ => .bind clean_ident fun _ _ => ?_
  refine .bind clean_condition fun _ _ => .bind (clean_expect _) fun _ _ => ?_
  refine .bind (clean_expect _) fun _ _ => .bind clean_ident fun _ _ => ?_
  refine .bind (clean_expect _) fun _ _ => .bind clean_arguments fun _ _ => ?_
  refine .bind clean_priority fun _ _ => .bind (clean_expect _) fun _ _ => ?_
  refine .bind clean_spaces fun _ _ => .bind clean_get fun _ _ => ?_
  exact .ite (.pure rfl) (.throw (by simp))

theorem clean_importDecl : Clean importDecl := by
  refine .bind (clean_expect _) fun _ _ => .bind clean_ident fun _ _ => ?_
  refine .bind (clean_accept _) fun _ _ => .ite ?_ (.pure trivial)
  exact .bind (clean_wordUpTo _) fun _ _ => .pure trivial

theorem ensures_exportDecl (location : Location) :
    Ensures (exportDecl location) fun decl => decl.location = location :=
  .bind (clean_expect _) fun _ _ => .bind clean_ident fun _ _ =>
    .bind (clean_expect _) fun _ _ => .pure rfl

end

/-- Where a statement is declared; imports do not say. -/
def location? : Statement → Option Location
  | .protocol analyzer => some analyzer.location
  | .file analyzer => some analyzer.location
  | .packet analyzer => some analyzer.location
  | .event declared => some declared.location
  | .imported _ => none
  | .exported decl => some decl.location

/-- Every statement but an import carries the location that it is read with. -/
theorem ensures_reader (location : Location) (version : Nat) :
    Ensures (reader location version) fun statement =>
      ∀ found ∈ statement.location?, found = location := by
  refine .bind (clean_sees _) fun _ _ => .ite ?_ ?_
  · exact .bind (ensures_protocolAnalyzer location) fun _ located =>
      .pure (by simp [location?, located])
  refine .bind (clean_sees _) fun _ _ => .ite ?_ ?_
  · exact .bind (ensures_fileAnalyzer location) fun _ located =>
      .pure (by simp [location?, located])
  refine .bind (clean_sees _) fun _ _ => .ite ?_ ?_
  · exact .bind (ensures_packetAnalyzer location version) fun _ located =>
      .pure (by simp [location?, located])
  refine .bind (clean_sees _) fun _ _ => .ite ?_ ?_
  · exact .bind (ensures_eventDecl location) fun _ located =>
      .pure (by simp [location?, located])
  refine .bind (clean_sees _) fun _ _ => .ite ?_ ?_
  · exact .bind clean_importDecl fun _ _ => .pure (by simp [location?])
  refine .bind (clean_sees _) fun _ _ => .ite ?_ (.throw (by simp))
  exact .bind (ensures_exportDecl location) fun _ located =>
    .pure (by simp [location?, located])

section

variable {text : List Char} {location : Location} {version : Nat}

/-- A statement of a chunk is at the location of the chunk. -/
theorem eq_location_of_parse {statement : Statement}
    (read : parse text location version = .ok statement) :
    ∀ found ∈ statement.location?, found = location := by
  have outcome := ensures_reader location version (Cursor.start text)
  unfold parse run at read
  split at read
  · rename_i result
    cases read
    rwa [result] at outcome
  · cases read

/-- A statement never fails because the source ends. -/
theorem ne_unexpectedEnd_of_parse {cause : EvtError}
    (failed : parse text location version = .error cause) : cause ≠ .unexpectedEnd := by
  have outcome := ensures_reader location version (Cursor.start text)
  unfold parse run at failed
  split at failed
  · cases failed
  · rename_i result
    cases failed
    rwa [result] at outcome

end

end Statement

end AnalyzerGlue.Evt
