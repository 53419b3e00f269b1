import AnalyzerGlue.Proofs.Evt.Outcome
import AnalyzerGlue.Proofs.Evt.Taking

/-!
# Canonical texts of statements

Each statement has a canonical text: one clause for each field that is present, in
a fixed order, with a comma and a blank between them.  A statement whose ids, words,
ports and arguments can be written is read back from its canonical text.
-/

namespace AnalyzerGlue

/-! ## Texts -/

/-- The clause that gives a name, if there is one to give. -/
def nameClause (start : String) (name : Option QualName) : List String :=
  name.toList.map fun name => start ++ name.text

/-- The clause that lists ports, if there are some. -/
def portsClause (ports : List Port) : List String :=
  if ports.isEmpty then []
  else ["ports \x7b " ++ ", ".intercalate (ports.map Port.text) ++ " \x7d"]

namespace ProtocolAnalyzer

/-- The clauses for the fields that are present. -/
def clauseTexts (analyzer : ProtocolAnalyzer) : List String :=
  nameClause "parse originator with " analyzer.originator ++
    nameClause "parse responder with " analyzer.responder ++
    portsClause analyzer.ports ++ nameClause "replaces " analyzer.replaces

/-- The canonical text of a protocol analyzer. -/
def text (analyzer : ProtocolAnalyzer) : String :=
  "protocol analyzer " ++ analyzer.name ++ " over " ++ analyzer.transport.keyword ++ " : " ++
    ", ".intercalate analyzer.clauseTexts ++ ";"

end ProtocolAnalyzer

namespace FileAnalyzer

/-- The clauses for the fields that are present; each MIME type has its own. -/
def clauseTexts (analyzer : FileAnalyzer) : List String :=
  nameClause "parse with " analyzer.unit ++ analyzer.mimeTypes.map ("mime-type " ++ ·) ++
    nameClause "replaces " analyzer.replaces

/-- The canonical text of a file analyzer. -/
def text (analyzer : FileAnalyzer) : String :=
  "file analyzer " ++ analyzer.name ++ " : " ++ ", ".intercalate analyzer.clauseTexts ++ ";"

end FileAnalyzer

namespace PacketAnalyzer

/-- The clauses for the fields that are present. -/
def clauseTexts (analyzer : PacketAnalyzer) : List String :=
  nameClause "parse with " analyzer.unit ++ nameClause "replaces " analyzer.replaces

/-- The canonical text of a packet analyzer. -/
def text (analyzer : PacketAnalyzer) : String :=
  "packet analyzer " ++ analyzer.name ++ " : " ++ ", ".intercalate analyzer.clauseTexts ++ ";"

end PacketAnalyzer

/-- The condition of an event behind its path, if there is one. -/
def Event.conditionText (event : Event) : String :=
  match event.condition with
  | none => ""
  | some condition => " if (" ++ condition ++ ")"

/-- The canonical text of an event; it always gives the priority. -/
def Event.text (event : Event) : String :=
  "on " ++ event.path.text ++ event.conditionText ++ " -> event " ++ event.name.text ++ "(" ++
    ", ".intercalate event.exprs ++ ") &priority=" ++ toString event.priority ++ ";"

/-- The canonical text of an import. -/
def ImportDecl.text (decl : ImportDecl) : String :=
  match decl.scope with
  | none => "import " ++ decl.name.text ++ ";"
  | some scope => "import " ++ decl.name.text ++ " from " ++ scope ++ ";"

/-- The canonical text of an export. -/
def ExportDecl.text (decl : ExportDecl) : String :=
  "export " ++ decl.id.text ++ ";"

namespace Evt.Statement

open Reader Text

/-- The canonical text of a statement. -/
def text : Statement → String
  | .protocol analyzer => analyzer.text
  | .file analyzer => analyzer.text
  | .packet analyzer => analyzer.text
  | .event declared => declared.text
  | .imported decl => decl.text
  | .exported decl => decl.text

/-! ## Clauses -/

/-- What may follow a clause. -/
def EndsClause (rest : List Char) : Prop :=
  ∃ c others, rest = c :: others ∧ (c = ',' ∨ c = ';')

theorem EndsClause.endsId {rest : List Char} (ends : EndsClause rest) : EndsId rest := by
  rcases ends with ⟨c, others, rfl, rfl | rfl⟩ <;> rintro d ⟨rfl⟩ <;> rfl

/-- Clauses lead from one analyzer to another if each is read with its change. -/
inductive Amends {α : Type} (clause : α → Reader α) : α → List String → α → Prop where
  | nil (analyzer : α) : Amends clause analyzer [] analyzer
  | cons {analyzer changed final : α} {text : String} {texts : List String}
      (reads : ∀ rest, EndsClause rest →
        Takes (clause analyzer) (' ' :: text.toList) rest changed)
      (others : Amends clause changed texts final) :
      Amends clause analyzer (text :: texts) final

namespace Amends

variable {α : Type} {clause : α → Reader α}

theorem append {start middle final : α} {texts more : List String}
    (first : Amends clause start texts middle) (second : Amends clause middle more final) :
    Amends clause start (texts ++ more) final := by
  induction first with
  | nil => exact second
  | cons reads _ ih => exact .cons reads (ih second)

/-- A clause that gives a name, if it is read with the change that the name makes. -/
theorem name {start : String} {change : Option QualName → α} {name : Option QualName}
    (reads : ∀ given ∈ name, ∀ rest, EndsClause rest →
      Takes (clause (change none)) (' ' :: (start ++ given.text).toList) rest
        (change (some given))) :
    Amends clause (change none) (nameClause start name) (change name) := by
  cases name with
  | none => exact .nil _
  | some given => exact .cons (reads given rfl) (.nil _)

/-- Clauses are read with commas between them. -/
theorem takes_clauses {start final : α} {texts : List String}
    (amends : Amends clause start texts final) (notNil : texts ≠ []) (rest : List Char) :
    Takes (clauses clause start) (' ' :: (", ".intercalate texts).toList) (';' :: rest) final := by
  induction amends with
  | nil => exact absurd rfl notNil
  | @cons analyzer changed final text texts reads others ih =>
      cases texts with
      | nil =>
          cases others
          rw [String.intercalate_singleton]
          refine .loop_done ?_
          rw [← List.append_nil (' ' :: text.toList)]
          exact (reads _ ⟨_, _, rfl, .inr rfl⟩).bind ((takes_sees rfl).before (.pure _ _))
      | cons next texts =>
          have isText : ' ' :: (", ".intercalate (text :: next :: texts)).toList =
              (' ' :: text.toList ++ [',']) ++
                ' ' :: (", ".intercalate (next :: texts)).toList := by
            rw [String.intercalate_cons_cons]
            simp
          rw [isText]
          refine .loop_again ?_ (by simp) (ih (by simp))
          refine (reads _ ⟨_, _, rfl, .inl rfl⟩).bind ((takes_sees_of_lacks (by rfl)).before ?_)
          exact (@takes_expect "," [] _ _ _ rfl rfl rfl).andReturn

end Amends

variable {rest : List Char}

/-- A clause with the name of a unit. -/
theorem takes_withUnit {unit : QualName} (isId : IsId unit.text.toList) (ends : EndsClause rest)
    {α : Type} (result : QualName → α) :
    Takes (do expect "with"; return result (← ident))
      ([' '] ++ "with".toList ++ ' ' :: unit.text.toList) rest (result unit) :=
  (takes_expect rfl rfl rfl).bind (takes_ident isId ends.endsId).andReturn

/-! ## Protocol analyzers -/

section Protocol

variable (analyzer : ProtocolAnalyzer)

theorem takes_originator {unit : QualName} (isId : IsId unit.text.toList)
    (ends : EndsClause rest) :
    Takes (protocolClause analyzer) (' ' :: ("parse originator with " ++ unit.text).toList) rest
      { analyzer with originator := some unit } := by
  have isText : ' ' :: ("parse originator with " ++ unit.text).toList =
      [' '] ++ "parse".toList ++ ([' '] ++ "originator".toList ++
        ([' '] ++ "with".toList ++ ' ' :: unit.text.toList)) := by simp
  rw [isText]
  exact .accepted rfl rfl rfl (.accepted rfl rfl rfl (takes_withUnit isId ends _))

theorem takes_responder {unit : QualName} (isId : IsId unit.text.toList)
    (ends : EndsClause rest) :
    Takes (protocolClause analyzer) (' ' :: ("parse responder with " ++ unit.text).toList) rest
      { analyzer with responder := some unit } := by
  have isText : ' ' :: ("parse responder with " ++ unit.text).toList =
      [' '] ++ "parse".toList ++ ([' '] ++ "responder".toList ++
        ([' '] ++ "with".toList ++ ' ' :: unit.text.toList)) := by simp
  rw [isText]
  refine .accepted rfl rfl rfl (.passed (by rfl) ?_)
  exact .accepted rfl rfl rfl (takes_withUnit isId ends _)

/-- Ports are read with commas between them up to the brace. -/
theorem takes_portRounds {ports : List Port} (notNil : ports ≠ [])
    (bounded : ∀ port ∈ ports, port.number ≤ Port.maxNumber) (taken : List Port) :
    Takes (loop (fun taken => do
        let more ← Reader.ports
        if ← accept "\x7d" then
          return .done (taken ++ more)
        else
          expect ","
          return .again (taken ++ more)) taken)
      (' ' :: (", ".intercalate (ports.map Port.text) ++ " \x7d").toList) rest
      (taken ++ ports) := by
  induction ports generalizing taken with
  | nil => exact absurd rfl notNil
  | cons port ports ih =>
      have isBounded := bounded port List.mem_cons_self
      cases ports with
      | nil =>
          have isText : ' ' :: (", ".intercalate ([port].map Port.text) ++ " \x7d").toList =
              ' ' :: port.text.toList ++ ([' '] ++ "\x7d".toList ++ []) := by simp
          rw [isText]
          refine .loop_done ((takes_ports isBounded (by rfl)).bind ?_)
          exact .accepted rfl rfl rfl (.pure _ _)
      | cons next ports =>
          have isText : ' ' :: (", ".intercalate ((port :: next :: ports).map Port.text) ++
                " \x7d").toList =
              (' ' :: port.text.toList ++ ([] ++ ",".toList)) ++
                ' ' :: (", ".intercalate ((next :: ports).map Port.text) ++ " \x7d").toList := by
            simp
          have others := ih (by simp) (fun port member => bounded port (.tail _ member))
            (taken ++ [port])
          rw [isText, List.append_cons taken port]
          refine .loop_again ((takes_ports isBounded (by rfl)).bind ?_) (by simp) others
          exact .passed (by rfl) (takes_expect rfl rfl rfl).andReturn

theorem takes_portsClause {ports : List Port} (notNil : ports ≠ [])
    (bounded : ∀ port ∈ ports, port.number ≤ Port.maxNumber) :
    Takes (protocolClause analyzer)
      (' ' :: ("ports \x7b " ++ ", ".intercalate (ports.map Port.text) ++ " \x7d").toList) rest
      { analyzer with ports := analyzer.ports ++ ports } := by
  have isText :
      ' ' :: ("ports \x7b " ++ ", ".intercalate (ports.map Port.text) ++ " \x7d").toList =
        [' '] ++ "ports".toList ++ ([' '] ++ "\x7b".toList ++
          ' ' :: (", ".intercalate (ports.map Port.text) ++ " \x7d").toList) := by
    simp
  rw [isText]
  refine .passed (by rfl) (.accepted rfl rfl rfl (.andReturn ?_))
  exact (takes_expect rfl rfl rfl).bind (takes_portRounds notNil bounded [])

theorem takes_replaces {name : QualName} (isId : IsId name.text.toList)
    (ends : EndsClause rest) :
    Takes (protocolClause analyzer) (' ' :: ("replaces " ++ name.text).toList) rest
      { analyzer with replaces := some name } := by
  have isText : ' ' :: ("replaces " ++ name.text).toList =
      [' '] ++ "replaces".toList ++ ' ' :: name.text.toList := by simp
  rw [isText]
  refine .passed (by rfl) (.passed (by rfl) (.passed (by rfl) (.accepted rfl rfl rfl ?_)))
  exact (takes_ident isId ends.endsId).andReturn

theorem takes_transport (transport : Transport) (ends : EndsId rest) :
    Takes Statement.transport (' ' :: transport.keyword.toList) rest transport := by
  have isId : IsId transport.keyword.toList := by
    cases transport <;> exact ⟨by decide, rfl, by decide⟩
  have isLower : transport.keyword.map Char.toLower = transport.keyword := by
    rw [← String.toList_inj, String.toList_map]
    cases transport <;> rfl
  intro seen
  rw [Statement.transport, bind_of_eq_ok (@takes_ident ⟨transport.keyword⟩ _ isId ends seen)]
  simp only [isLower, Transport.ofKeyword?_keyword]
  rfl

end Protocol

/-- Protocol analyzers with ids, ports and at least one direction. -/
structure IsProtocol (analyzer : ProtocolAnalyzer) : Prop where
  name : IsId analyzer.name.toList
  originator : ∀ unit ∈ analyzer.originator, IsId unit.text.toList
  responder : ∀ unit ∈ analyzer.responder, IsId unit.text.toList
  ports : ∀ port ∈ analyzer.ports, port.number ≤ Port.maxNumber
  replaces : ∀ name ∈ analyzer.replaces, IsId name.text.toList

theorem IsProtocol.amends {analyzer : ProtocolAnalyzer} (readable : IsProtocol analyzer) :
    Amends protocolClause
      ⟨analyzer.name, analyzer.transport, none, none, [], none, analyzer.location⟩
      analyzer.clauseTexts analyzer := by
  rcases analyzer with ⟨name, carrier, originator, responder, ports, replaces, location⟩
  rcases readable with ⟨-, isOriginator, isResponder, bounded, isReplaced⟩
  have originators := @Amends.name _ protocolClause "parse originator with "
    (⟨name, carrier, ·, none, [], none, location⟩) originator
    fun unit given _ ends => takes_originator _ (isOriginator unit given) ends
  have responders := @Amends.name _ protocolClause "parse responder with "
    (⟨name, carrier, originator, ·, [], none, location⟩) responder
    fun unit given _ ends => takes_responder _ (isResponder unit given) ends
  have replaced := @Amends.name _ protocolClause "replaces "
    (⟨name, carrier, originator, responder, ports, ·, location⟩) replaces
    fun name given _ ends => takes_replaces _ (isReplaced name given) ends
  have listed : Amends protocolClause
      ⟨name, carrier, originator, responder, [], none, location⟩ (portsClause ports)
      ⟨name, carrier, originator, responder, ports, none, location⟩ := by
    unfold portsClause
    cases ports with
    | nil => exact .nil _
    | cons port ports => exact .cons (fun _ _ => takes_portsClause _ (by simp) bounded) (.nil _)
  exact ((originators.append responders).append listed).append replaced

theorem toList_text_protocol (analyzer : ProtocolAnalyzer) :
    analyzer.text.toList = "protocol".toList ++ (([' '] ++ "analyzer".toList) ++
      (' ' :: analyzer.name.toList ++ (([' '] ++ "over".toList) ++
        (' ' :: analyzer.transport.keyword.toList ++ (([' '] ++ ":".toList) ++
          (' ' :: (", ".intercalate analyzer.clauseTexts).toList ++ [])))))) ++ [';'] := by
  unfold ProtocolAnalyzer.text
  simp

/-- A protocol analyzer is read back from its canonical text up to the semicolon. -/
theorem takes_protocolAnalyzer {analyzer : ProtocolAnalyzer} (readable : IsProtocol analyzer)
    (parses : analyzer.originator.isSome ∨ analyzer.responder.isSome) :
    ∃ body, analyzer.text.toList = "protocol".toList ++ body ++ [';'] ∧
      Takes (protocolAnalyzer analyzer.location) ("protocol".toList ++ body) [';'] analyzer := by
  have notNil : analyzer.clauseTexts ≠ [] := by
    rcases analyzer with ⟨name, carrier, _ | unit, _ | unit, ports, replaces, location⟩
    · simp at parses
    all_goals simp [ProtocolAnalyzer.clauseTexts, nameClause]
  refine ⟨_, toList_text_protocol analyzer, .bind (takes_expect_here rfl rfl) ?_⟩
  refine .bind (takes_expect rfl rfl rfl) ?_
  refine .bind (@takes_ident ⟨analyzer.name⟩ _ readable.name (by rintro _ ⟨rfl⟩; rfl)) ?_
  refine .bind (takes_expect rfl rfl rfl) ?_
  refine .bind (takes_transport analyzer.transport (by rintro _ ⟨rfl⟩; rfl)) ?_
  refine .bind (takes_expect rfl rfl rfl) (.bind (readable.amends.takes_clauses notNil []) ?_)
  rw [if_neg (by rcases parses with given | given <;> simp [Option.isNone_eq_false_iff.mpr given])]
  exact .pure _ _

/-! ## File and packet analyzers -/

/-- File analyzers with ids and MIME types. -/
structure IsFile (analyzer : FileAnalyzer) : Prop where
  name : IsId analyzer.name.toList
  unit : ∀ unit ∈ analyzer.unit, IsId unit.text.toList
  mimeTypes : ∀ mime ∈ analyzer.mimeTypes, IsWord (fun c => c == ';' || c == ',') mime.toList
  replaces : ∀ name ∈ analyzer.replaces, IsId name.text.toList

section File

variable (analyzer : FileAnalyzer)

theorem takes_fileUnit {unit : QualName} (isId : IsId unit.text.toList) (ends : EndsClause rest) :
    Takes (fileClause analyzer) (' ' :: ("parse with " ++ unit.text).toList) rest
      { analyzer with unit := some unit } := by
  have isText : ' ' :: ("parse with " ++ unit.text).toList =
      [' '] ++ "parse".toList ++ ([' '] ++ "with".toList ++ ' ' :: unit.text.toList) := by simp
  rw [isText]
  exact .accepted rfl rfl rfl (takes_withUnit isId ends _)

theorem takes_mimeType {mime : String} (isWord : IsWord (fun c => c == ';' || c == ',') mime.toList)
    (ends : EndsClause rest) :
    Takes (fileClause analyzer) (' ' :: ("mime-type " ++ mime).toList) rest
      { analyzer with mimeTypes := analyzer.mimeTypes ++ [mime] } := by
  have isText : ' ' :: ("mime-type " ++ mime).toList =
      [' '] ++ "mime-type".toList ++ ' ' :: mime.toList := by simp
  rw [isText]
  refine .passed (by rfl) (.accepted rfl rfl rfl (.andReturn (takes_wordUpTo isWord ?_)))
  rcases ends with ⟨c, others, rfl, rfl | rfl⟩ <;> rintro d ⟨rfl⟩ <;> rfl

theorem takes_fileReplaces {name : QualName} (isId : IsId name.text.toList)
    (ends : EndsClause rest) :
    Takes (fileClause analyzer) (' ' :: ("replaces " ++ name.text).toList) rest
      { analyzer with replaces := some name } := by
  have isText : ' ' :: ("replaces " ++ name.text).toList =
      [' '] ++ "replaces".toList ++ ' ' :: name.text.toList := by simp
  rw [isText]
  refine .passed (by rfl) (.passed (by rfl) (.accepted rfl rfl rfl ?_))
  exact (takes_ident isId ends.endsId).andReturn

/-- MIME types add up. -/
theorem amends_mimeTypes {types : List String}
    (areWords : ∀ mime ∈ types, IsWord (fun c => c == ';' || c == ',') mime.toList) :
    Amends fileClause analyzer (types.map ("mime-type " ++ ·))
      { analyzer with mimeTypes := analyzer.mimeTypes ++ types } := by
  induction types generalizing analyzer with
  | nil =>
      rw [List.append_nil]
      exact .nil _
  | cons mime types ih =>
      have others := ih { analyzer with mimeTypes := analyzer.mimeTypes ++ [mime] }
        fun mime member => areWords mime (.tail _ member)
      rw [List.append_cons]
      exact .cons (fun _ ends => takes_mimeType _ (areWords mime List.mem_cons_self) ends) others

end File

theorem IsFile.amends {analyzer : FileAnalyzer} (readable : IsFile analyzer) :
    Amends fileClause ⟨analyzer.name, none, [], none, analyzer.location⟩
      analyzer.clauseTexts analyzer := by
  rcases analyzer with ⟨name, unit, mimeTypes, replaces, location⟩
  rcases readable with ⟨-, isUnit, areWords, isReplaced⟩
  have units := @Amends.name _ fileClause "parse with " (⟨name, ·, [], none, location⟩) unit
    fun unit given _ ends => takes_fileUnit _ (isUnit unit given) ends
  have types := amends_mimeTypes ⟨name, unit, [], none, location⟩ areWords
  have replaced := @Amends.name _ fileClause "replaces " (⟨name, unit, mimeTypes, ·, location⟩)
    replaces fun name given _ ends => takes_fileReplaces _ (isReplaced name given) ends
  exact (units.append types).append replaced

theorem toList_text_file (analyzer : FileAnalyzer) :
    analyzer.text.toList = "file".toList ++ (([' '] ++ "analyzer".toList) ++
      (' ' :: analyzer.name.toList ++ (([' '] ++ ":".toList) ++
        ' ' :: (", ".intercalate analyzer.clauseTexts).toList))) ++ [';'] := by
  unfold FileAnalyzer.text
  simp

/-- A file analyzer is read back from its canonical text up to the semicolon. -/
theorem takes_fileAnalyzer {analyzer : FileAnalyzer} (readable : IsFile analyzer)
    (notNil : analyzer.clauseTexts ≠ []) :
    ∃ body, analyzer.text.toList = "file".toList ++ body ++ [';'] ∧
      Takes (fileAnalyzer analyzer.location) ("file".toList ++ body) [';'] analyzer := by
  refine ⟨_, toList_text_file analyzer, .bind (takes_expect_here rfl rfl) ?_⟩
  refine .bind (takes_expect rfl rfl rfl) ?_
  refine .bind (@takes_ident ⟨analyzer.name⟩ _ readable.name (by rintro _ ⟨rfl⟩; rfl)) ?_
  exact .bind (takes_expect rfl rfl rfl) (readable.amends.takes_clauses notNil [])

/-- Packet analyzers with ids that replace others only where the host knows how to. -/
structure IsPacket (version : Nat) (analyzer : PacketAnalyzer) : Prop where
  name : IsId analyzer.name.toList
  unit : ∀ unit ∈ analyzer.unit, IsId unit.text.toList
  replaces : ∀ name ∈ analyzer.replaces,
    packetReplacementVersion ≤ version ∧ IsId name.text.toList

section Packet

variable (analyzer : PacketAnalyzer) {version : Nat}

theorem takes_packetUnit {unit : QualName} (isId : IsId unit.text.toList)
    (ends : EndsClause rest) :
    Takes (packetClause version analyzer) (' ' :: ("parse with " ++ unit.text).toList) rest
      { analyzer with unit := some unit } := by
  have isText : ' ' :: ("parse with " ++ unit.text).toList =
      [' '] ++ "parse".toList ++ ([' '] ++ "with".toList ++ ' ' :: unit.text.toList) := by simp
  rw [isText]
  exact .accepted rfl rfl rfl (takes_withUnit isId ends _)

theorem takes_packetReplaces {name : QualName} (recent : packetReplacementVersion ≤ version)
    (isId : IsId name.text.toList) (ends : EndsClause rest) :
    Takes (packetClause version analyzer) (' ' :: ("replaces " ++ name.text).toList) rest
      { analyzer with replaces := some name } := by
  have isText : ' ' :: ("replaces " ++ name.text).toList =
      [' '] ++ "replaces".toList ++ ' ' :: name.text.toList := by simp
  rw [isText]
  refine .passed (by rfl) (.before (takes_sees rfl) ?_)
  rw [if_pos rfl, if_neg (Nat.not_lt.mpr recent)]
  exact .bind (takes_expect rfl rfl rfl) (takes_ident isId ends.endsId).andReturn

end Packet

theorem IsPacket.amends {version : Nat} {analyzer : PacketAnalyzer}
    (readable : IsPacket version analyzer) :
    Amends (packetClause version) ⟨analyzer.name, none, none, analyzer.location⟩
      analyzer.clauseTexts analyzer := by
  rcases analyzer with ⟨name, unit, replaces, location⟩
  rcases readable with ⟨-, isUnit, isReplaced⟩
  have units := @Amends.name _ (packetClause version) "parse with " (⟨name, ·, none, location⟩) unit
    fun unit given _ ends => takes_packetUnit _ (isUnit unit given) ends
  have replaced := @Amends.name _ (packetClause version) "replaces " (⟨name, unit, ·, location⟩)
    replaces fun name given _ ends =>
      takes_packetReplaces _ (isReplaced name given).1 (isReplaced name given).2 ends
  exact units.append replaced

theorem toList_text_packet (analyzer : PacketAnalyzer) :
    analyzer.text.toList = "packet".toList ++ (([' '] ++ "analyzer".toList) ++
      (' ' :: analyzer.name.toList ++ (([' '] ++ ":".toList) ++
        ' ' :: (", ".intercalate analyzer.clauseTexts).toList))) ++ [';'] := by
  unfold PacketAnalyzer.text
  simp

/-- A packet analyzer is read back from its canonical text up to the semicolon. -/
theorem takes_packetAnalyzer {version : Nat} {analyzer : PacketAnalyzer}
    (readable : IsPacket version analyzer) (notNil : analyzer.clauseTexts ≠ []) :
    ∃ body, analyzer.text.toList = "packet".toList ++ body ++ [';'] ∧
      Takes (packetAnalyzer analyzer.location version) ("packet".toList ++ body) [';']
        analyzer := by
  refine ⟨_, toList_text_packet analyzer, .bind (takes_expect_here rfl rfl) ?_⟩
  refine .bind (takes_expect rfl rfl rfl) ?_
  refine .bind (@takes_ident ⟨analyzer.name⟩ _ readable.name (by rintro _ ⟨rfl⟩; rfl)) ?_
  exact .bind (takes_expect rfl rfl rfl) (readable.amends.takes_clauses notNil [])

/-! ## Events -/

/-- Events with ids and arguments that have not been resolved. -/
structure IsEvent (event : Event) : Prop where
  path : IsId event.path.text.toList
  condition : ∀ text ∈ event.condition, IsArgument text.toList
  name : IsId event.name.text.toList
  exprs : ∀ text ∈ event.exprs, IsArgument text.toList
  priority : minSigned ≤ event.priority ∧ event.priority ≤ maxSigned
  unresolved : event.unit = none ∧ event.hook = none ∧ event.binding = none

theorem takes_condition {event : Event}
    (isArgument : ∀ text ∈ event.condition, IsArgument text.toList) (lacks : Lacks "if" rest) :
    Takes condition event.conditionText.toList rest event.condition := by
  rcases event with ⟨path, _ | text, name, exprs, priority, location, unit, hook, binding⟩
  · exact .passed lacks (.pure _ _)
  · have isText : (" if (" ++ text ++ ")").toList = [' '] ++ "if".toList ++
        (([' '] ++ "(".toList) ++ (text.toList ++ (")".toList ++ []))) := by simp
    show Takes _ (" if (" ++ text ++ ")").toList _ _
    rw [isText]
    refine .accepted rfl rfl rfl (.bind (takes_expect rfl rfl rfl) ?_)
    refine .bind (@takes_expr [] _ ')' text rfl (isArgument text rfl) (.inl rfl)) ?_
    exact .bind (takes_expect_here rfl rfl) (.pure _ _)

theorem endsId_conditionText (event : Event) (ends : EndsId rest) :
    EndsId (event.conditionText.toList ++ rest) := by
  rcases event with ⟨path, _ | text, name, exprs, priority, location, unit, hook, binding⟩
  · exact ends
  · show EndsId ((" if (" ++ text ++ ")").toList ++ rest)
    rw [String.append_assoc, String.toList_append]
    rintro _ ⟨rfl⟩
    rfl

/-- What is written behind the first argument. -/
def argumentsTail (texts : List String) : List Char :=
  texts.flatMap (fun text => ',' :: ' ' :: text.toList) ++ [')']

theorem toList_intercalate_arguments (text : String) (texts : List String) :
    (", ".intercalate (text :: texts)).toList ++ [')'] = text.toList ++ argumentsTail texts := by
  induction texts generalizing text with
  | nil => simp [argumentsTail]
  | cons next texts ih =>
      have isText : (", ".intercalate (text :: next :: texts)).toList ++ [')'] =
          text.toList ++ ',' :: ' ' :: ((", ".intercalate (next :: texts)).toList ++ [')']) := by
        simp
      rw [isText, ih]
      simp [argumentsTail]

theorem exists_argumentsTail (texts : List String) :
    ∃ c others, argumentsTail texts = c :: others ∧ (c = ')' ∨ c = ',') := by
  cases texts with
  | nil => exact ⟨_, _, rfl, .inl rfl⟩
  | cons text texts => exact ⟨_, _, rfl, .inr rfl⟩

/-- An argument is read up to those behind it. -/
theorem takes_argument {blanks : List Char} {text : String} (texts : List String)
    (blank : blanks.all isAsciiSpace = true) (isArgument : IsArgument text.toList) :
    Takes expr (blanks ++ text.toList) (argumentsTail texts ++ rest) text := by
  rcases exists_argumentsTail texts with ⟨c, others, isTail, ends⟩
  rw [isTail]
  exact takes_expr blank isArgument ends

/-- Arguments are read with commas between them up to the parenthesis. -/
theorem takes_argumentRounds {texts : List String}
    (areArguments : ∀ text ∈ texts, IsArgument text.toList) (taken : List String) :
    Takes (loop (fun taken => do
        if ← accept ")" then
          return .done taken
        else
          expect ","
          return .again (taken ++ [← expr])) taken)
      (argumentsTail texts) rest (taken ++ texts) := by
  induction texts generalizing taken with
  | nil =>
      rw [List.append_nil]
      exact .loop_done (@Takes.accepted _ ")" [] _ _ _ _ _ [] _ rfl rfl rfl (.pure _ _))
  | cons text texts ih =>
      have isText : argumentsTail (text :: texts) =
          (",".toList ++ ([' '] ++ text.toList)) ++ argumentsTail texts := by
        simp [argumentsTail]
      have others := ih (fun text member => areArguments text (.tail _ member)) (taken ++ [text])
      rw [isText, List.append_cons]
      refine .loop_again (.passed (by rfl) (.bind (takes_expect_here rfl rfl) ?_)) (by simp) others
      exact (takes_argument texts rfl (areArguments text List.mem_cons_self)).andReturn

theorem takes_arguments {texts : List String}
    (areArguments : ∀ text ∈ texts, IsArgument text.toList) :
    Takes arguments ((", ".intercalate texts).toList ++ [')']) rest texts := by
  cases texts with
  | nil => exact @Takes.accepted _ ")" [] _ _ _ _ _ [] _ rfl rfl rfl (.pure _ _)
  | cons text texts =>
      have isArgument := areArguments text List.mem_cons_self
      have lacks : Lacks ")" (text.toList ++ argumentsTail texts ++ rest) := by
        rcases isArgument.exists_cons with ⟨c, others, isText, visible, noClose⟩
        rw [isText]
        simp [Lacks, dropStart?, visible, noClose.symm]
      rw [toList_intercalate_arguments]
      refine .passed lacks (.bind (@takes_argument _ [] text texts rfl isArgument) ?_)
      exact takes_argumentRounds (fun text member => areArguments text (.tail _ member)) [text]

theorem toList_text_event (event : Event) :
    event.text.toList = "on".toList ++ (' ' :: event.path.text.toList ++
      (event.conditionText.toList ++ (([' '] ++ "->".toList) ++ (([' '] ++ "event".toList) ++
        (' ' :: event.name.text.toList ++ ("(".toList ++
          (((", ".intercalate event.exprs).toList ++ [')']) ++ ([' '] ++ "&priority".toList ++
            ("=".toList ++ (toString event.priority).toList) ++ (";".toList ++ []))))))))) := by
  unfold Event.text
  simp

/-- An event is read back from its canonical text. -/
theorem takes_eventDecl {event : Event} (readable : IsEvent event) :
    ∃ body, event.text.toList = "on".toList ++ body ∧
      Takes (eventDecl event.location) ("on".toList ++ body) [] event := by
  refine ⟨_, toList_text_event event, .bind (takes_expect_here rfl rfl) ?_⟩
  refine .bind (takes_ident readable.path ?_) ?_
  · rw [List.append_assoc]
    exact endsId_conditionText event (by rintro _ ⟨rfl⟩; rfl)
  refine .bind (takes_condition readable.condition (by rfl)) ?_
  refine .bind (takes_expect rfl rfl rfl) (.bind (takes_expect rfl rfl rfl) ?_)
  refine .bind (takes_ident readable.name (by rintro _ ⟨rfl⟩; rfl)) ?_
  refine .bind (takes_expect_here rfl rfl) (.bind (takes_arguments readable.exprs) ?_)
  refine .bind (.accepted rfl rfl rfl (.bind (takes_expect_here rfl rfl)
    (takes_integer readable.priority ?_))) ?_
  · rintro _ ⟨rfl⟩
    rfl
  refine .bind (takes_expect_here rfl rfl) ?_
  rcases event with ⟨path, condition, name, exprs, priority, location, unit, hook, binding⟩
  rcases readable.unresolved with ⟨rfl, rfl, rfl⟩
  exact fun _ => rfl

/-! ## Imports and exports -/

/-- Imports of an id, with a path if there is a scope. -/
structure IsImport (decl : ImportDecl) : Prop where
  name : IsId decl.name.text.toList
  scope : ∀ path ∈ decl.scope, IsWord (fun c => c == ';') path.toList

theorem takes_importDecl {decl : ImportDecl} (readable : IsImport decl) :
    ∃ body, decl.text.toList = "import".toList ++ body ++ [';'] ∧
      Takes importDecl ("import".toList ++ body) [';'] decl := by
  rcases decl with ⟨name, _ | path⟩
  · refine ⟨' ' :: name.text.toList ++ [], by simp [ImportDecl.text], ?_⟩
    refine .bind (takes_expect_here rfl rfl) (.bind (takes_ident readable.name ?_) ?_)
    · rintro _ ⟨rfl⟩
      rfl
    · exact .passed (by rfl) (.pure _ _)
  · refine ⟨' ' :: name.text.toList ++ ([' '] ++ "from".toList ++ ' ' :: path.toList),
      by simp [ImportDecl.text], ?_⟩
    refine .bind (takes_expect_here rfl rfl) (.bind (takes_ident readable.name ?_) ?_)
    · rintro _ ⟨rfl⟩
      rfl
    · refine .accepted rfl rfl rfl (.andReturn (takes_wordUpTo (readable.scope path rfl) ?_))
      rintro _ ⟨rfl⟩
      rfl

theorem takes_exportDecl {decl : ExportDecl} (isId : IsId decl.id.text.toList) :
    ∃ body, decl.text.toList = "export".toList ++ body ∧
      Takes (exportDecl decl.location) ("export".toList ++ body) [] decl := by
  refine ⟨' ' :: decl.id.text.toList ++ ";".toList, by simp [ExportDecl.text], ?_⟩
  refine .bind (takes_expect_here rfl rfl) (.bind (takes_ident isId ?_) ?_)
  · rintro _ ⟨rfl⟩
    rfl
  · exact (takes_expect_here rfl rfl).andReturn

/-! ## Statements -/

/-- Statements that can be written. -/
def IsWritable (version : Nat) : Statement → Prop
  | .protocol analyzer =>
      IsProtocol analyzer ∧ (analyzer.originator.isSome ∨ analyzer.responder.isSome)
  | .file analyzer => IsFile analyzer ∧ analyzer.clauseTexts ≠ []
  | .packet analyzer => IsPacket version analyzer ∧ analyzer.clauseTexts ≠ []
  | .event declared => IsEvent declared
  | .imported decl => IsImport decl
  | .exported decl => IsId decl.id.text.toList

/-- A statement is read back from its canonical text, or from what is before its
semicolon. -/
theorem takes_reader {version : Nat} {location : Location} {statement : Statement}
    (writable : IsWritable version statement)
    (located : ∀ found ∈ statement.location?, found = location) :
    ∃ body rest, statement.text.toList = body ++ rest ∧
      Takes (reader location version) body rest statement := by
  cases statement with
  | protocol analyzer =>
      cases located _ rfl
      rcases takes_protocolAnalyzer writable.1 writable.2 with ⟨body, isText, reads⟩
      exact ⟨_, _, isText, .before (takes_sees rfl) reads.andReturn⟩
  | file analyzer =>
      cases located _ rfl
      rcases takes_fileAnalyzer writable.1 writable.2 with ⟨body, isText, reads⟩
      refine ⟨_, _, isText, .before (takes_sees_of_lacks (by rfl)) ?_⟩
      exact .before (takes_sees rfl) reads.andReturn
  | packet analyzer =>
      cases located _ rfl
      rcases takes_packetAnalyzer writable.1 writable.2 with ⟨body, isText, reads⟩
      refine ⟨_, _, isText, .before (takes_sees_of_lacks (by rfl)) ?_⟩
      refine .before (takes_sees_of_lacks (by rfl)) (.before (takes_sees rfl) reads.andReturn)
  | event declared =>
      cases located _ rfl
      rcases takes_eventDecl writable with ⟨body, isText, reads⟩
      refine ⟨_, [], isText.trans (List.append_nil _).symm, ?_⟩
      refine .before (takes_sees_of_lacks (by rfl)) (.before (takes_sees_of_lacks (by rfl)) ?_)
      exact .before (takes_sees_of_lacks (by rfl)) (.before (takes_sees rfl) reads.andReturn)
  | imported decl =>
      rcases takes_importDecl writable with ⟨body, isText, reads⟩
      refine ⟨_, _, isText, ?_⟩
      refine .before (takes_sees_of_lacks (by rfl)) (.before (takes_sees_of_lacks (by rfl)) ?_)
      refine .before (takes_sees_of_lacks (by rfl)) (.before (takes_sees_of_lacks (by rfl)) ?_)
      exact .before (takes_sees rfl) reads.andReturn
  | exported decl =>
      cases located _ rfl
      rcases takes_exportDecl writable with ⟨body, isText, reads⟩
      refine ⟨_, [], isText.trans (List.append_nil _).symm, ?_⟩
      refine .before (takes_sees_of_lacks (by rfl)) (.before (takes_sees_of_lacks (by rfl)) ?_)
      refine .before (takes_sees_of_lacks (by rfl)) (.before (takes_sees_of_lacks (by rfl)) ?_)
      exact .before (takes_sees_of_lacks (by rfl)) (.before (takes_sees rfl) reads.andReturn)

end Evt.Statement

end AnalyzerGlue
