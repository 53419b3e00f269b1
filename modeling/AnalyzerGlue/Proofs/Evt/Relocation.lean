import AnalyzerGlue.Evt.Load

/-!
# Statements at other locations

A reader passes the location of a statement on to what it returns and never looks
at it.  So moving the location before a statement is read is the same as moving it
in the declaration afterwards, and the errors do not depend on it.
-/

namespace AnalyzerGlue

/-- The location some lines further down. -/
def Location.below (location : Location) (count : Nat) : Location :=
  ⟨location.file, location.line + count⟩

/-- The error with its location moved, if it has one. -/
def Located.relocate {κ : Type} (move : Location → Location) (error : Located κ) : Located κ :=
  ⟨error.cause, error.location.map move⟩

@[simp]
theorem Located.relocate_reportedAt {κ : Type} (move : Location → Location) (cause : κ)
    (location : Location) :
    (Located.reportedAt cause location).relocate move = .reportedAt cause (move location) :=
  rfl

/-! ## Moving declarations -/

section

variable (move : Location → Location)

/-- The analyzer at another location. -/
def ProtocolAnalyzer.relocate (analyzer : ProtocolAnalyzer) : ProtocolAnalyzer :=
  { analyzer with location := move analyzer.location }

/-- The analyzer at another location. -/
def FileAnalyzer.relocate (analyzer : FileAnalyzer) : FileAnalyzer :=
  { analyzer with location := move analyzer.location }

/-- The analyzer at another location. -/
def PacketAnalyzer.relocate (analyzer : PacketAnalyzer) : PacketAnalyzer :=
  { analyzer with location := move analyzer.location }

/-- The event at another location. -/
def Event.relocate (event : Event) : Event :=
  { event with location := move event.location }

/-- The export at another location. -/
def ExportDecl.relocate (decl : ExportDecl) : ExportDecl :=
  { decl with location := move decl.location }

/-- The statement at another location; imports have none. -/
def Evt.Statement.relocate : Evt.Statement → Evt.Statement
  | .protocol analyzer => .protocol (analyzer.relocate move)
  | .file analyzer => .file (analyzer.relocate move)
  | .packet analyzer => .packet (analyzer.relocate move)
  | .event declared => .event (declared.relocate move)
  | .imported decl => .imported decl
  | .exported decl => .exported (decl.relocate move)

/-- The store with all its declarations moved. -/
def Store.relocate (store : Store) : Store where
  protocols := store.protocols.map (ProtocolAnalyzer.relocate move)
  files := store.files.map (FileAnalyzer.relocate move)
  packets := store.packets.map (PacketAnalyzer.relocate move)
  events := store.events.map (Event.relocate move)
  imports := store.imports
  exports := store.exports.map (ExportDecl.relocate move)
  modules := store.modules

/-- Adding a moved statement adds to what is moved. -/
theorem Store.addStatement_relocate (store added : Store) (statement : Evt.Statement) :
    (store.extend (added.relocate move)).addStatement (statement.relocate move) =
      store.extend ((added.addStatement statement).relocate move) := by
  cases statement <;>
    simp [extend, addStatement, relocate, Evt.Statement.relocate]

theorem Store.extend_relocate_empty (store : Store) :
    store.extend (empty.relocate move) = store := by
  simp [extend, relocate, empty]

end

/-! ## Readers that pass something on -/

namespace Evt.Reader

variable {α β γ δ : Type}

/-- Two readers of which the second returns a change of what the first returns,
and which are the same in all other respects. -/
def Passes (change : α → β) (first : Reader α) (second : Reader β) : Prop :=
  second = change <$> first

namespace Passes

variable {change : α → β} {first : Reader α} {second : Reader β}

theorem pure (value : α) : Passes change (pure value) (pure (change value)) :=
  rfl

theorem throw (cause : EvtError) : Passes change (throw cause) (throw cause) :=
  rfl

/-- A change that is passed on by one reader and by those that go on from it. -/
theorem andThen {earlier : γ → δ} {before : Reader γ} {behind : Reader δ} {first : γ → Reader α}
    {second : δ → Reader β} (passes : Passes earlier before behind)
    (passesOn : ∀ value, Passes change (first value) (second (earlier value))) :
    Passes change (before >>= first) (behind >>= second) := by
  unfold Passes at *
  rw [passes, bind_map_left, map_bind]
  congr 1
  funext value
  exact passesOn value

/-- What is read before does not depend on what is passed on. -/
theorem bind {reader : Reader γ} {first : γ → Reader α} {second : γ → Reader β}
    (passesOn : ∀ value, Passes change (first value) (second value)) :
    Passes change (reader >>= first) (reader >>= second) :=
  andThen (id_map reader).symm passesOn

theorem ite {condition : Prop} [Decidable condition] {other : Reader α} {otherChanged : Reader β}
    (whenTrue : Passes change first second) (whenFalse : Passes change other otherChanged) :
    Passes change (if condition then first else other)
      (if condition then second else otherChanged) := by
  split
  · exact whenTrue
  · exact whenFalse

end Passes

/-- The outcome of a round with its state changed. -/
def Round.map (change : α → β) : Round α → Round β
  | .again state => .again (change state)
  | .done state => .done (change state)

/-- A change that each round passes on is passed on by the loop. -/
theorem Passes.loop {change : α → β} {first : α → Reader (Round α)}
    {second : β → Reader (Round β)}
    (passes : ∀ state, Passes (Round.map change) (first state) (second (change state)))
    (state : α) : Passes change (loop first state) (loop second (change state)) := by
  funext cursor
  show _ = EStateM.map change (Reader.loop first state) cursor
  have step : ∀ state cursor, second (change state) cursor =
      EStateM.map (Round.map change) (first state) cursor := fun state cursor =>
    congrFun (passes state) cursor
  simp only [EStateM.map] at step ⊢
  fun_induction Reader.loop first state cursor with
  | case1 state cursor cause moved failed => rw [Reader.loop, step, failed]
  | case2 state cursor final moved read =>
      rw [Reader.loop, step, read]
      rfl
  | case3 state cursor next moved read further ih =>
      rw [Reader.loop, step, read]
      simp only [Round.map, if_pos further, ih]
  | case4 state cursor next moved read stays =>
      rw [Reader.loop, step, read]
      simp only [Round.map, if_neg stays]

end Evt.Reader

/-! ## Reading statements -/

namespace Evt.Statement

open Reader

/-- A change that each clause passes on is passed on by all of them. -/
theorem passes_clauses {α β : Type} {change : α → β} {first : α → Reader α}
    {second : β → Reader β}
    (passes : ∀ analyzer, Passes change (first analyzer) (second (change analyzer))) (start : α) :
    Passes change (clauses first start) (clauses second (change start)) := by
  refine .loop (fun analyzer => (passes analyzer).andThen fun changed => ?_) start
  exact .bind fun _ => .ite (.pure _) (.bind fun _ => .pure _)

section

variable (move : Location → Location)

theorem passes_directions (analyzer : ProtocolAnalyzer) :
    Passes (ProtocolAnalyzer.relocate move) (directions analyzer)
      (directions (analyzer.relocate move)) :=
  .bind fun _ => .ite (.bind fun _ => .bind fun _ => .pure _) <|
    .bind fun _ => .ite (.bind fun _ => .bind fun _ => .pure _) <|
    .bind fun _ => .ite (.bind fun _ => .bind fun _ => .pure _) (.throw _)

theorem passes_protocolClause (analyzer : ProtocolAnalyzer) :
    Passes (ProtocolAnalyzer.relocate move) (protocolClause analyzer)
      (protocolClause (analyzer.relocate move)) :=
  .bind fun _ => .ite (passes_directions move analyzer) <|
    .bind fun _ => .ite (.bind fun _ => .pure _) <|
    .bind fun _ => .ite (.bind fun _ => .pure _) <|
    .bind fun _ => .ite (.bind fun _ => .pure _) (.throw _)

theorem passes_fileClause (analyzer : FileAnalyzer) :
    Passes (FileAnalyzer.relocate move) (fileClause analyzer)
      (fileClause (analyzer.relocate move)) :=
  .bind fun _ => .ite (.bind fun _ => .bind fun _ => .pure _) <|
    .bind fun _ => .ite (.bind fun _ => .pure _) <|
    .bind fun _ => .ite (.bind fun _ => .pure _) (.throw _)

theorem passes_packetClause (version : Nat) (analyzer : PacketAnalyzer) :
    Passes (PacketAnalyzer.relocate move) (packetClause version analyzer)
      (packetClause version (analyzer.relocate move)) :=
  .bind fun _ => .ite (.bind fun _ => .bind fun _ => .pure _) <|
    .bind fun _ => .ite (.ite (.throw _) (.bind fun _ => .bind fun _ => .pure _)) (.throw _)

variable (location : Location)

theorem passes_protocolAnalyzer :
    Passes (ProtocolAnalyzer.relocate move) (protocolAnalyzer location)
      (protocolAnalyzer (move location)) := by
  refine .bind fun _ => .bind fun _ => .bind fun name => .bind fun _ => .bind fun carrier =>
    .bind fun _ => ?_
  exact (passes_clauses (passes_protocolClause move)
    ⟨name.text, carrier, none, none, [], none, location⟩).andThen fun analyzer =>
      .ite (.throw _) (.pure _)

theorem passes_fileAnalyzer :
    Passes (FileAnalyzer.relocate move) (fileAnalyzer location) (fileAnalyzer (move location)) :=
  .bind fun _ => .bind fun _ => .bind fun _ => .bind fun _ =>
    passes_clauses (passes_fileClause move) ⟨_, none, [], none, location⟩

theorem passes_packetAnalyzer (version : Nat) :
    Passes (PacketAnalyzer.relocate move) (packetAnalyzer location version)
      (packetAnalyzer (move location) version) :=
  .bind fun _ => .bind fun _ => .bind fun _ => .bind fun _ =>
    passes_clauses (passes_packetClause move version) ⟨_, none, none, location⟩

theorem passes_eventDecl :
    Passes (Event.relocate move) (eventDecl location) (eventDecl (move location)) :=
  .bind fun _ => .bind fun _ => .bind fun _ => .bind fun _ => .bind fun _ => .bind fun _ =>
    .bind fun _ => .bind fun _ => .bind fun _ => .bind fun _ => .bind fun _ => .bind fun _ =>
    .ite (.pure _) (.throw _)

theorem passes_exportDecl :
    Passes (ExportDecl.relocate move) (exportDecl location) (exportDecl (move location)) :=
  .bind fun _ => .bind fun _ => .bind fun _ => .pure _

/-- Every statement passes its location on, whatever kind it is of. -/
theorem passes_reader (version : Nat) :
    Passes (relocate move) (reader location version) (reader (move location) version) :=
  .bind fun _ => .ite ((passes_protocolAnalyzer move location).andThen fun _ => .pure _) <|
    .bind fun _ => .ite ((passes_fileAnalyzer move location).andThen fun _ => .pure _) <|
    .bind fun _ => .ite ((passes_packetAnalyzer move location version).andThen fun _ => .pure _) <|
    .bind fun _ => .ite ((passes_eventDecl move location).andThen fun _ => .pure _) <|
    .bind fun _ => .ite (.bind fun _ => .pure (Statement.imported _)) <|
    .bind fun _ => .ite ((passes_exportDecl move location).andThen fun _ => .pure _) (.throw _)

/-- What a reader passes on is passed on from the start of a text. -/
theorem run_map {α β : Type} (change : α → β) (reader : Reader α) (text : List Char) :
    run (change <$> reader) text = (run reader text).map change := by
  unfold run
  simp only [Functor.map, EStateM.map]
  cases reader (Cursor.start text) <;> rfl

/-- A statement at another location is read in the same way. -/
theorem parse_relocate (text : List Char) (version : Nat) :
    parse text (move location) version = (parse text location version).map (relocate move) := by
  rw [parse, passes_reader move location version, run_map, parse]

end

end Evt.Statement

end AnalyzerGlue
