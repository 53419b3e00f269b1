import AnalyzerGlue.Proofs.Evt.Closing
import AnalyzerGlue.Proofs.Evt.Imports

/-!
# What statements leave unread

A chunk ends with a semicolon, and a semicolon inside of it is behind a quote or a
backslash.  Exports, protocol and packet analyzers have neither, so the first semicolon
they come to is the last character of the chunk; events look behind theirs.  They are all
read to the end.

This is not so for the other two.  A MIME type may hold quotes and backslashes, and a
file analyzer ends at the first semicolon behind it; what follows is left.  An import does
not look for its semicolon at all, and leaves whatever is behind its module or scope.
-/

namespace AnalyzerGlue.Evt

open AnalyzerGlue.Text

/-! ## Places at the end of a statement -/

/-- Nothing remains but white space and perhaps the semicolon. -/
def IsSpent (rest : List Char) : Prop :=
  ∃ blanks, blanks.all isAsciiSpace = true ∧ (rest = blanks ∨ rest = blanks ++ [';'])

theorem not_isSpent_of_mem {rest : List Char} {c : Char} (member : c ∈ rest.dropLast)
    (visible : isAsciiSpace c = false) : ¬ IsSpent rest := by
  rintro ⟨blanks, blank, rfl | rfl⟩
  · have space := List.all_eq_true.mp blank c (List.dropLast_subset _ member)
    rw [visible] at space
    cases space
  · rw [List.dropLast_concat] at member
    have space := List.all_eq_true.mp blank c member
    rw [visible] at space
    cases space

namespace Reader

variable {α : Type}

theorem exists_of_at? {cursor : Cursor} (follows : cursor.at? ";" = true) :
    ∃ blanks tail, blanks.all isAsciiSpace = true ∧ cursor.rest = blanks ++ ';' :: tail := by
  rcases Option.isSome_iff_exists.mp follows with ⟨moved, isMoved⟩
  rcases exists_of_after?_eq_some isMoved with ⟨blanks, blank, isRest⟩
  exact ⟨blanks, moved.rest, blank, isRest⟩

theorem not_mem_of_all_isAsciiSpace {blanks : List Char}
    (blank : blanks.all isAsciiSpace = true) : ';' ∉ blanks :=
  fun member => (isPlain_of_isAsciiSpace (List.all_eq_true.mp blank ';' member)).1 rfl

/-- Behind plain characters only, the semicolon that follows is the last one. -/
theorem isSpent_of_leadsTo {text : List Char} {moved : Cursor} (closed : Scanner.IsClosed text)
    (leads : LeadsTo IsPlain (Cursor.start text) moved) (follows : moved.at? ";" = true) :
    IsSpent moved.rest := by
  rcases exists_of_at? follows with ⟨blanks, tail, blank, isRest⟩
  rcases leads with ⟨taken, isText, plain⟩
  have isTail : tail = [] := by
    apply closed.guarded (taken ++ blanks) tail
    · rw [List.append_assoc, ← isRest]
      exact isText
    · exact List.forall_mem_append.mpr
        ⟨plain, fun c member => isPlain_of_isAsciiSpace (List.all_eq_true.mp blank c member)⟩
  exact ⟨blanks, blank, .inr (by rw [isRest, isTail])⟩

/-- Behind no semicolon, the one that follows is the last one exactly if there is no
other in the text. -/
theorem isSpent_iff_of_leadsTo {text : List Char} {moved : Cursor}
    (leads : LeadsTo (· ≠ ';') (Cursor.start text) moved) (follows : moved.at? ";" = true) :
    IsSpent moved.rest ↔ ';' ∉ text.dropLast := by
  rcases exists_of_at? follows with ⟨blanks, tail, blank, isRest⟩
  rcases leads with ⟨taken, isText, areOther⟩
  have noEnd : ';' ∉ taken ++ blanks := by
    rw [List.mem_append, not_or]
    exact ⟨fun member => areOther ';' member rfl, not_mem_of_all_isAsciiSpace blank⟩
  have isWhole : text = (taken ++ blanks) ++ ';' :: tail := by
    rw [List.append_assoc, ← isRest]
    exact isText
  rcases List.eq_nil_or_concat tail with rfl | ⟨inner, last, rfl⟩
  · rw [isWhole, List.dropLast_concat]
    exact ⟨fun _ => noEnd, fun _ => ⟨blanks, blank, .inr isRest⟩⟩
  · have isInside : ';' ∈ text.dropLast := by
      rw [isWhole, List.concat_eq_append, ← List.cons_append, ← List.append_assoc,
        List.dropLast_concat]
      simp
    refine ⟨?_, fun isOutside => absurd isInside isOutside⟩
    rintro ⟨others, isBlank, isOthers | isOthers⟩
    · have member : ';' ∈ others := by rw [← isOthers, isRest]; simp
      exact absurd member (not_mem_of_all_isAsciiSpace isBlank)
    · rw [isRest, List.concat_eq_append, ← List.cons_append, ← List.append_assoc] at isOthers
      have member : ';' ∈ others := by
        rw [← (List.append_inj' isOthers rfl).1]
        simp
      exact absurd member (not_mem_of_all_isAsciiSpace isBlank)

/-- What is seen is at the place that is reached. -/
theorem returns_sees {before : Cursor → Prop} (token : String) :
    Returns before (sees token) fun found moved => found = moved.at? token ∧ before moved := by
  rintro cursor _ _ known ⟨⟩
  exact ⟨rfl, known⟩

/-- If every round that wants another one moves the cursor, the last round wants none. -/
theorem loop_ends {round : α → Reader (Round α)} {behind : Cursor → Prop}
    (advances : ∀ state cursor, Returns (· = cursor) (round state) fun outcome moved =>
      match outcome with
      | .again _ => moved.rest.length < cursor.rest.length
      | .done _ => behind moved)
    {before : Cursor → Prop} (state : α) :
    Returns before (loop round state) fun _ => behind := by
  intro cursor value moved known read
  clear known
  fun_induction loop round state cursor with
  | case1 => cases read
  | case2 state cursor final there isRead =>
      cases read
      exact advances state cursor cursor _ _ rfl isRead
  | case3 state cursor next there isRead _ ih => exact ih read
  | case4 state cursor next there isRead stays =>
      exact absurd (advances state cursor cursor _ _ rfl isRead) stays

end Reader

namespace Statement

open Reader

variable {α : Type}

/-! ## Analyzers -/

/-- Clauses end where a semicolon follows. -/
theorem returns_at_clauses {allowed : Char → Prop} {clause : α → Reader α}
    (reads : ∀ analyzer, Covers allowed (clause analyzer)) {before : Cursor → Prop} (start : α) :
    Returns before (clauses clause start) fun _ moved => moved.at? ";" = true := by
  refine loop_ends (fun analyzer cursor => ?_) start
  have clauseRead : Returns (· = cursor) (clause analyzer) fun _ => LeadsTo allowed cursor := by
    rintro _ _ _ rfl read
    exact (reads analyzer).leadsTo read
  refine .bind clauseRead fun changed => .bind (returns_sees ";") fun found => ?_
  refine .ite (fun isFound => .pure fun moved known => ?_) fun _ => ?_
  · rw [← known.1]
    exact isFound
  · -- The comma is what makes the rest shorter.
    have commaRead : Returns (fun moved => found = moved.at? ";" ∧ LeadsTo allowed cursor moved)
        (expect ",") fun _ moved => moved.rest.length < cursor.rest.length := by
      intro there _ moved known read
      rcases exists_of_expect_eq_ok read with ⟨blanks, _, isRest⟩
      have shorter := known.2.length_le
      rw [isRest] at shorter
      simp only [List.length_append] at shorter
      have isComma : ",".toList.length = 1 := rfl
      omega
    exact .bind commaRead fun _ => .pure fun _ => id

theorem returns_at_protocolAnalyzer (location : Location) :
    Returns Anywhere (protocolAnalyzer location) fun _ moved => moved.at? ";" = true := by
  refine .bind (.anything _) fun _ => .bind (.anything _) fun _ => .bind (.anything _) fun _ => ?_
  refine .bind (.anything _) fun _ => .bind (.anything _) fun _ => .bind (.anything _) fun _ => ?_
  refine .bind (returns_at_clauses covers_protocolClause _) fun _ => ?_
  exact .ite (fun _ => .throw _) fun _ => .pure fun _ => id

theorem returns_at_fileAnalyzer (location : Location) :
    Returns Anywhere (fileAnalyzer location) fun _ moved => moved.at? ";" = true := by
  refine .bind (.anything _) fun _ => .bind (.anything _) fun _ => .bind (.anything _) fun _ => ?_
  exact .bind (.anything _) fun _ => returns_at_clauses covers_fileClause _

theorem returns_at_packetAnalyzer (location : Location) (version : Nat) :
    Returns Anywhere (packetAnalyzer location version) fun _ moved => moved.at? ";" = true := by
  refine .bind (.anything _) fun _ => .bind (.anything _) fun _ => .bind (.anything _) fun _ => ?_
  exact .bind (.anything _) fun _ => returns_at_clauses (covers_packetClause version) _

/-! ## Events and exports -/

/-- An event is read to the end of the text. -/
theorem returns_nil_eventDecl (location : Location) :
    Returns Anywhere (eventDecl location) fun _ moved => moved.rest = [] := by
  refine .bind (.anything _) fun _ => .bind (.anything _) fun _ => .bind (.anything _) fun _ => ?_
  refine .bind (.anything _) fun _ => .bind (.anything _) fun _ => .bind (.anything _) fun _ => ?_
  refine .bind (.anything _) fun _ => .bind (.anything _) fun _ => .bind (.anything _) fun _ => ?_
  refine .bind (.anything _) fun _ => .bind (.anything _) fun _ => ?_
  refine .bind (returns_get _) fun cursor => .ite (fun isEmpty => ?_) fun _ => .throw _
  refine .pure fun moved known => ?_
  rw [← known.1]
  exact List.isEmpty_iff.mp isEmpty

/-- An export is plain up to the semicolon behind which it ends. -/
theorem exists_of_exportDecl {location : Location} {cursor moved : Cursor} {decl : ExportDecl}
    (read : exportDecl location cursor = .ok decl moved) :
    ∃ taken, cursor.rest = taken ++ ';' :: moved.rest ∧ ∀ c ∈ taken, IsPlain c := by
  have reads : Returns (LeadsTo IsPlain cursor) (exportDecl location) fun _ moved =>
      ∃ taken, cursor.rest = taken ++ ';' :: moved.rest ∧ ∀ c ∈ taken, IsPlain c := by
    have endRead : Returns (LeadsTo IsPlain cursor) (expect ";") fun _ moved =>
        ∃ taken, cursor.rest = taken ++ ';' :: moved.rest ∧ ∀ c ∈ taken, IsPlain c := by
      rintro there _ moved ⟨taken, isTaken, plain⟩ read
      rcases exists_of_expect_eq_ok read with ⟨blanks, blank, isRest⟩
      refine ⟨taken ++ blanks, ?_, List.forall_mem_append.mpr ⟨plain, fun c member => ?_⟩⟩
      · rw [isTaken, isRest, List.append_assoc]
        rfl
      · exact isPlain_of_isAsciiSpace (List.all_eq_true.mp blank c member)
    refine .bind (covers_expect rfl cursor) fun _ => .bind (covers_ident cursor) fun _ => ?_
    exact .bind endRead fun _ => .pure fun _ => id
  exact reads cursor decl moved (.refl cursor) read

/-! ## Imports -/

theorem ImportText.semicolon_not_mem {body : List Char} (isImport : ImportText body) :
    ';' ∉ body := by
  have notInName : ∀ {name : List Char}, cutId none name = (name, []) → ';' ∉ name := by
    intro name whole member
    exact absurd (isIdPart_of_cutId whole ';' member) (by decide)
  cases isImport with
  | bare blank _ whole =>
      simp only [List.mem_append, not_or]
      exact ⟨by decide, not_mem_of_all_isAsciiSpace blank, notInName whole⟩
  | withScope blank _ whole blankBefore _ blankBehind isWord =>
      have notInScope : ';' ∉ _ := fun member => absurd (isWord.2 ';' member) (by decide)
      simp only [List.mem_append, not_or]
      exact ⟨by decide, ⟨not_mem_of_all_isAsciiSpace blank, notInName whole⟩,
        ⟨not_mem_of_all_isAsciiSpace blankBefore, by decide⟩,
        not_mem_of_all_isAsciiSpace blankBehind, notInScope⟩

/-- An import is read to the end exactly if there is nothing else in its chunk. -/
theorem isSpent_importDecl_iff {text : List Char} {moved : Cursor} {decl : ImportDecl}
    (closed : Scanner.IsClosed text) (read : importDecl (Cursor.start text) = .ok decl moved) :
    IsSpent moved.rest ↔ IsWholeImport text := by
  constructor
  · rintro ⟨blanks, blank, isBlank | isEnd⟩
    · -- The semicolon of the chunk has to be somewhere.
      exfalso
      rcases returns_importText closed.first _ decl moved rfl read with ⟨body, isImport, isText⟩
      have member : ';' ∈ body ++ blanks := by
        rw [← isBlank, ← isText]
        exact List.mem_of_getLast? closed.last
      rcases List.mem_append.mp member with inBody | inBlanks
      · exact isImport.semicolon_not_mem inBody
      · exact not_mem_of_all_isAsciiSpace blank inBlanks
    · rcases returns_importText closed.first _ decl moved rfl read with ⟨body, isImport, isText⟩
      exact ⟨body, blanks, isImport, blank, by rw [← isEnd, isText]⟩
  · rintro ⟨body, blanks, isImport, blank, rfl⟩
    rcases importDecl_of_importText isImport blank with ⟨other, seen, isRead⟩
    rw [isRead] at read
    cases read
    exact ⟨blanks, blank, .inr rfl⟩

/-! ## Statements -/

/-- The reader of its kind has read the statement. -/
def IsReadFrom (location : Location) (version : Nat) (cursor moved : Cursor) : Statement → Prop
  | .protocol analyzer => protocolAnalyzer location cursor = .ok analyzer moved
  | .file analyzer => fileAnalyzer location cursor = .ok analyzer moved
  | .packet analyzer => packetAnalyzer location version cursor = .ok analyzer moved
  | .event decl => eventDecl location cursor = .ok decl moved
  | .imported decl => importDecl cursor = .ok decl moved
  | .exported decl => exportDecl location cursor = .ok decl moved

/-- A statement is read by the reader of the kind that its first word tells, from where the
word is. -/
theorem returns_isReadFrom (location : Location) (version : Nat) (cursor : Cursor) :
    Returns (· = cursor) (reader location version) fun statement moved =>
      statement.IsReadFrom location version cursor moved := by
  have branch : ∀ {β : Type} {token : String} {kind : Reader β} {make : β → Statement}
      {others : Reader Statement},
      (∀ value moved, kind cursor = .ok value moved →
        (make value).IsReadFrom location version cursor moved) →
      (Returns (· = cursor) others fun statement moved =>
        statement.IsReadFrom location version cursor moved) →
      Returns (· = cursor) (do if ← sees token then return make (← kind) else others)
        fun statement moved => statement.IsReadFrom location version cursor moved := by
    intro β token kind make others isRead reads
    have stays : Returns (· = cursor) (sees token) fun _ => (· = cursor) := by
      rintro _ _ _ rfl ⟨⟩
      rfl
    have kindRead : Returns (· = cursor) kind fun value moved =>
        kind cursor = .ok value moved := by
      rintro _ _ _ rfl read
      exact read
    refine .bind stays fun _ => .ite (fun _ => ?_) fun _ => reads
    exact .bind kindRead fun value => .pure (isRead value)
  apply branch fun _ _ => id
  apply branch fun _ _ => id
  apply branch fun _ _ => id
  apply branch fun _ _ => id
  apply branch fun _ _ => id
  apply branch fun _ _ => id
  exact .throw _

/-- The text has nothing in it that its statement does not look at. -/
def IsReadWhole (text : List Char) : Statement → Prop
  | .file _ => ';' ∉ text.dropLast
  | .imported _ => IsWholeImport text
  | _ => True

theorem isSpent_iff_of_isReadFrom {text : List Char} {location : Location} {version : Nat}
    {statement : Statement} {moved : Cursor} (closed : Scanner.IsClosed text)
    (read : statement.IsReadFrom location version (Cursor.start text) moved) :
    IsSpent moved.rest ↔ statement.IsReadWhole text := by
  cases statement with
  | protocol analyzer =>
      have follows := returns_at_protocolAnalyzer location _ _ _ trivial read
      exact iff_true_intro
        (isSpent_of_leadsTo closed ((covers_protocolAnalyzer location).leadsTo read) follows)
  | file analyzer =>
      have follows := returns_at_fileAnalyzer location _ _ _ trivial read
      exact isSpent_iff_of_leadsTo ((covers_fileAnalyzer location).leadsTo read) follows
  | packet analyzer =>
      have follows := returns_at_packetAnalyzer location version _ _ _ trivial read
      exact iff_true_intro
        (isSpent_of_leadsTo closed ((covers_packetAnalyzer location version).leadsTo read) follows)
  | event decl =>
      have isEnd := returns_nil_eventDecl location _ _ _ trivial read
      exact iff_true_intro ⟨[], rfl, .inl isEnd⟩
  | imported decl => exact isSpent_importDecl_iff closed read
  | exported decl =>
      rcases exists_of_exportDecl read with ⟨taken, isText, plain⟩
      exact iff_true_intro ⟨[], rfl, .inl (closed.guarded taken moved.rest isText plain)⟩

/-- Whether a statement that is accepted has been read up to the semicolon of its chunk:
events, exports, protocol and packet analyzers always, the others if nothing in the chunk
is left over. -/
theorem parse_isSpent_iff {source : List Char} {chunk : Chunk} {line : Nat}
    {location : Location} {version : Nat} {statement : Statement}
    (delivered : (.chunk chunk, line) ∈ (Scanner.start source).all)
    (parsed : parse chunk.text location version = .ok statement) :
    ∃ moved, reader location version (Cursor.start chunk.text) = .ok statement moved ∧
      (IsSpent moved.rest ↔ statement.IsReadWhole chunk.text) := by
  unfold parse run at parsed
  split at parsed
  · rename_i found moved isRead
    cases parsed
    have read := returns_isReadFrom location version _ _ _ _ rfl isRead
    exact ⟨moved, isRead, isSpent_iff_of_isReadFrom (Scanner.isClosed_of_mem_all delivered) read⟩
  · cases parsed

/-- An event with a semicolon in a string is read up to the last one. -/
theorem parse_isSpent_iff_quoted :
    let text := "on A::U -> event e(\"a;b\");".toList
    let location : Location := ⟨⟨"l.evt"⟩, 1⟩
    let event := { Event.declare ⟨"A::U"⟩ ⟨"e"⟩ location with exprs := ["\"a;b\""] }
    (.chunk ⟨text, 1⟩, 1) ∈ (Scanner.start text).all ∧
      parse text location 0 = .ok (.event event) ∧
      ∃ moved, reader location 0 (Cursor.start text) = .ok (.event event) moved ∧
        IsSpent moved.rest := by
  have scanned : (Scanner.start "on A::U -> event e(\"a;b\");".toList).all =
      [(.chunk ⟨"on A::U -> event e(\"a;b\");".toList, 1⟩, 1), (.finished, 1)] := by
    decide +kernel
  have parsed : parse "on A::U -> event e(\"a;b\");".toList ⟨⟨"l.evt"⟩, 1⟩ 0 = .ok (.event
      { Event.declare ⟨"A::U"⟩ ⟨"e"⟩ ⟨⟨"l.evt"⟩, 1⟩ with exprs := ["\"a;b\""] }) := by
    with_unfolding_all rfl
  have delivered : (.chunk ⟨"on A::U -> event e(\"a;b\");".toList, 1⟩, 1) ∈
      (Scanner.start "on A::U -> event e(\"a;b\");".toList).all := by
    rw [scanned]
    exact List.mem_cons_self
  intro text location event
  rcases parse_isSpent_iff delivered parsed with ⟨moved, isRead, isWhole⟩
  exact ⟨delivered, parsed, moved, isRead, isWhole.mpr trivial⟩

/-- An import is accepted with another word behind its module, and a file analyzer with a
clause behind the semicolon in its MIME type. -/
theorem parse_leaves_rest :
    let location : Location := ⟨⟨"l.evt"⟩, 1⟩
    let extended := "import A B;".toList
    let cut := "file analyzer F : mime-type a\\;b, parse with X::U;".toList
    ((.chunk ⟨extended, 1⟩, 1) ∈ (Scanner.start extended).all ∧
      ∃ moved, reader location 0 (Cursor.start extended) =
          .ok (.imported ⟨⟨"A"⟩, none⟩) moved ∧ moved.rest = " B;".toList ∧
        ¬ IsSpent moved.rest) ∧
      ((.chunk ⟨cut, 1⟩, 1) ∈ (Scanner.start cut).all ∧
        ∃ moved, reader location 0 (Cursor.start cut) =
            .ok (.file ⟨"F", none, ["a\\"], none, location⟩) moved ∧
          moved.rest = ";b, parse with X::U;".toList ∧ ¬ IsSpent moved.rest) := by
  have importScanned : (Scanner.start "import A B;".toList).all =
      [(.chunk ⟨"import A B;".toList, 1⟩, 1), (.finished, 1)] := by
    decide +kernel
  have importRead : reader ⟨⟨"l.evt"⟩, 1⟩ 0 (Cursor.start "import A B;".toList) =
      .ok (.imported ⟨⟨"A"⟩, none⟩) ⟨"import A".toList.reverse, " B;".toList⟩ := by
    with_unfolding_all rfl
  have fileScanned :
      (Scanner.start "file analyzer F : mime-type a\\;b, parse with X::U;".toList).all =
        [(.chunk ⟨"file analyzer F : mime-type a\\;b, parse with X::U;".toList, 1⟩, 1),
          (.finished, 1)] := by decide +kernel
  have fileRead : reader ⟨⟨"l.evt"⟩, 1⟩ 0
      (Cursor.start "file analyzer F : mime-type a\\;b, parse with X::U;".toList) =
        .ok (.file ⟨"F", none, ["a\\"], none, ⟨⟨"l.evt"⟩, 1⟩⟩)
          ⟨"file analyzer F : mime-type a\\".toList.reverse, ";b, parse with X::U;".toList⟩ := by
    with_unfolding_all rfl
  intro location extended cut
  constructor
  · refine ⟨importScanned ▸ List.mem_cons_self, _, importRead, rfl, ?_⟩
    exact @not_isSpent_of_mem _ 'B' (by decide) rfl
  · refine ⟨fileScanned ▸ List.mem_cons_self, _, fileRead, rfl, ?_⟩
    exact @not_isSpent_of_mem _ 'b' (by decide) rfl

end Statement

end AnalyzerGlue.Evt
