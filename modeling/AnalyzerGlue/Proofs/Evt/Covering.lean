import AnalyzerGlue.Evt.Statement
import AnalyzerGlue.Proofs.Evt.Returning

/-!
# What readers pass over

`Covers` says of which kind the characters are that a reader moves the cursor over.  The
readers for ids, ports and keywords only pass over plain characters: neither a semicolon,
nor anything that can keep a semicolon from ending a statement.  A word stops before a
semicolon, but may hold quotes and backslashes.
-/

namespace AnalyzerGlue.Evt

open AnalyzerGlue.Text

/-- Characters that neither end a statement nor keep a semicolon from ending one. -/
def IsPlain (c : Char) : Prop :=
  c ≠ ';' ∧ c ≠ '"' ∧ c ≠ '\\'

/-- Whether a token is made of such characters only. -/
def isPlainToken (token : String) : Bool :=
  token.toList.all fun c => c != ';' && c != '"' && c != '\\'

theorem isPlain_of_isPlainToken {token : String} (plain : isPlainToken token = true) :
    ∀ c ∈ token.toList, IsPlain c := by
  intro c member
  have belongs := List.all_eq_true.mp plain c member
  simpa [IsPlain, and_assoc] using belongs

theorem isPlain_of_isAsciiSpace {c : Char} (blank : isAsciiSpace c = true) : IsPlain c := by
  refine ⟨?_, ?_, ?_⟩ <;>
  · rintro rfl
    exact absurd blank (by decide)

theorem isPlain_of_isIdPart {c : Char} (isPart : Reader.isIdPart c = true) : IsPlain c := by
  refine ⟨?_, ?_, ?_⟩ <;>
  · rintro rfl
    exact absurd isPart (by decide)

theorem isPlain_of_isDigit {c : Char} (digit : c.isDigit = true) : IsPlain c := by
  refine ⟨?_, ?_, ?_⟩ <;>
  · rintro rfl
    cases digit

namespace Reader

variable {α β : Type}

/-- The way from one place to another leads over allowed characters. -/
def LeadsTo (allowed : Char → Prop) (cursor moved : Cursor) : Prop :=
  ∃ taken, cursor.rest = taken ++ moved.rest ∧ ∀ c ∈ taken, allowed c

/-- The reader only passes over allowed characters: where it returns, the way there from
any place has led over such characters if it had so before. -/
def Covers (allowed : Char → Prop) (reader : Reader α) : Prop :=
  ∀ start, Returns (LeadsTo allowed start) reader fun _ => LeadsTo allowed start

section

variable {allowed weaker : Char → Prop} {cursor middle moved : Cursor}

theorem LeadsTo.refl (cursor : Cursor) : LeadsTo allowed cursor cursor :=
  ⟨[], rfl, by simp⟩

theorem LeadsTo.trans (first : LeadsTo allowed cursor middle)
    (second : LeadsTo allowed middle moved) : LeadsTo allowed cursor moved := by
  rcases first with ⟨taken, isFirst, allowedFirst⟩
  rcases second with ⟨more, isSecond, allowedSecond⟩
  refine ⟨taken ++ more, ?_, List.forall_mem_append.mpr ⟨allowedFirst, allowedSecond⟩⟩
  rw [isFirst, isSecond, List.append_assoc]

theorem LeadsTo.mono (leads : LeadsTo allowed cursor moved)
    (weakens : ∀ c, allowed c → weaker c) : LeadsTo weaker cursor moved := by
  rcases leads with ⟨taken, isTaken, areAllowed⟩
  exact ⟨taken, isTaken, fun c member => weakens c (areAllowed c member)⟩

theorem LeadsTo.length_le (leads : LeadsTo allowed cursor moved) :
    moved.rest.length ≤ cursor.rest.length := by
  rcases leads with ⟨taken, isTaken, _⟩
  rw [isTaken, List.length_append]
  exact Nat.le_add_left _ _

end

namespace Covers

variable {allowed weaker : Char → Prop} {first other : Reader α}

theorem of_leadsTo (leads : ∀ cursor value moved, first cursor = .ok value moved →
    LeadsTo allowed cursor moved) : Covers allowed first :=
  fun _ cursor value moved known read => known.trans (leads cursor value moved read)

theorem leadsTo (reads : Covers allowed first) {cursor moved : Cursor} {value : α}
    (read : first cursor = .ok value moved) : LeadsTo allowed cursor moved :=
  reads cursor cursor value moved (.refl cursor) read

theorem pure (value : α) : Covers allowed (pure value) :=
  fun _ => .pure fun _ => id

theorem throw (cause : EvtError) : Covers allowed (throw cause : Reader α) :=
  fun _ => .throw cause

theorem bind {second : α → Reader β} (reads : Covers allowed first)
    (next : ∀ value, Covers allowed (second value)) : Covers allowed (first >>= second) :=
  fun start => .bind (reads start) fun value => next value start

theorem ite {condition : Prop} [Decidable condition] (whenTrue : Covers allowed first)
    (whenFalse : Covers allowed other) :
    Covers allowed (if condition then first else other) :=
  fun start => .ite (fun _ => whenTrue start) fun _ => whenFalse start

theorem loop {round : α → Reader (Round α)} (reads : ∀ state, Covers allowed (round state))
    (state : α) : Covers allowed (Reader.loop round state) := by
  intro start
  refine .loop (fun _ => LeadsTo allowed start) (fun _ => id) fun state => ?_
  intro cursor outcome moved known read
  have leads := reads state start cursor outcome moved known read
  cases outcome with
  | again next => exact ⟨leads, leads⟩
  | done final => exact leads

theorem mono (reads : Covers allowed first) (weakens : ∀ c, allowed c → weaker c) :
    Covers weaker first :=
  .of_leadsTo fun _ _ _ read => (reads.leadsTo read).mono weakens

end Covers

/-- The place is read and stays the same. -/
theorem returns_get (before : Cursor → Prop) :
    Returns before get fun found moved => found = moved ∧ before found := by
  rintro cursor _ _ known ⟨⟩
  exact ⟨rfl, known⟩

/-! ## Tokens -/

/-- A token is found behind white space. -/
theorem exists_of_after?_eq_some {cursor moved : Cursor} {token : String}
    (follows : cursor.after? token = some moved) :
    ∃ blanks, blanks.all isAsciiSpace = true ∧
      cursor.rest = blanks ++ (token.toList ++ moved.rest) := by
  rcases Option.map_eq_some_iff.mp follows with ⟨rest, isStart, rfl⟩
  refine ⟨cursor.rest.takeWhile isAsciiSpace, List.all_takeWhile, ?_⟩
  have isRest : cursor.rest.dropWhile isAsciiSpace = token.toList ++ rest :=
    dropStart?_eq_some_iff.mp isStart
  calc
    cursor.rest = cursor.rest.takeWhile isAsciiSpace ++ cursor.rest.dropWhile isAsciiSpace :=
      List.takeWhile_append_dropWhile.symm
    _ = _ := by rw [isRest]; rfl

theorem exists_of_expect_eq_ok {cursor moved : Cursor} {token : String} {value : PUnit}
    (read : expect token cursor = .ok value moved) :
    ∃ blanks, blanks.all isAsciiSpace = true ∧
      cursor.rest = blanks ++ (token.toList ++ moved.rest) := by
  rw [expect, get_bind] at read
  cases follows : cursor.after? token with
  | none =>
      rw [follows] at read
      cases read
  | some there =>
      rw [follows] at read
      cases read
      exact exists_of_after?_eq_some follows

/-- The cursor stays where it is unless the token is accepted. -/
theorem accept_eq_ok_cases {cursor moved : Cursor} {token : String} {found : Bool}
    (read : accept token cursor = .ok found moved) :
    (found = true ∧ cursor.after? token = some moved) ∨
      (found = false ∧ cursor.after? token = none ∧ moved = cursor) := by
  cases follows : cursor.after? token with
  | none =>
      rw [accept_of_after?_eq_none follows] at read
      cases read
      exact .inr ⟨rfl, rfl, rfl⟩
  | some there =>
      rw [accept_of_after?_eq_some follows] at read
      cases read
      exact .inl ⟨rfl, rfl⟩

section

variable {token : String}

theorem leadsTo_of_after? {cursor moved : Cursor} (plain : isPlainToken token = true)
    (follows : cursor.after? token = some moved) : LeadsTo IsPlain cursor moved := by
  rcases exists_of_after?_eq_some follows with ⟨blanks, blank, isRest⟩
  refine ⟨blanks ++ token.toList, by rw [isRest, List.append_assoc], ?_⟩
  exact List.forall_mem_append.mpr
    ⟨fun c member => isPlain_of_isAsciiSpace (List.all_eq_true.mp blank c member),
      isPlain_of_isPlainToken plain⟩

theorem covers_expect (plain : isPlainToken token = true) :
    Covers IsPlain (expect token) := by
  refine .of_leadsTo fun cursor _ moved read => ?_
  rw [expect, get_bind] at read
  cases follows : cursor.after? token with
  | none =>
      rw [follows] at read
      cases read
  | some there =>
      rw [follows] at read
      cases read
      exact leadsTo_of_after? plain follows

theorem covers_accept (plain : isPlainToken token = true) :
    Covers IsPlain (accept token) := by
  refine .of_leadsTo fun cursor found moved read => ?_
  rcases accept_eq_ok_cases read with ⟨_, follows⟩ | ⟨_, _, rfl⟩
  · exact leadsTo_of_after? plain follows
  · exact .refl moved

theorem covers_sees {allowed : Char → Prop} (token : String) : Covers allowed (sees token) := by
  rintro start cursor _ _ known ⟨⟩
  exact known

end

/-! ## Ids, words and ports -/

/-- What a span passes over: white space and the part that is cut off. -/
theorem covers_span {allowed : Char → Prop} {cut : Cursor → List Char × List Char}
    (blanks : ∀ c, isAsciiSpace c = true → allowed c)
    (cuts : ∀ cursor, cursor.rest = (cut cursor).1 ++ (cut cursor).2)
    (areAllowed : ∀ cursor, ∀ c ∈ (cut cursor).1, allowed c) : Covers allowed (span cut) := by
  refine .of_leadsTo ?_
  rintro cursor _ _ ⟨⟩
  let there := cursor.skipSpaces
  refine ⟨cursor.rest.takeWhile isAsciiSpace ++ (cut there).1, ?_, ?_⟩
  · calc
      cursor.rest = cursor.rest.takeWhile isAsciiSpace ++ there.rest :=
        List.takeWhile_append_dropWhile.symm
      _ = _ := by rw [cuts there, ← List.append_assoc]; rfl
  · refine List.forall_mem_append.mpr ⟨fun c member => ?_, areAllowed there⟩
    exact blanks c (List.all_eq_true.mp List.all_takeWhile c member)

theorem isIdPart_of_cutId {before : Option Char} {text taken rest : List Char}
    (cut : cutId before text = (taken, rest)) : ∀ c ∈ taken, isIdPart c = true := by
  induction text generalizing before taken with
  | nil =>
      cases cut
      simp
  | cons d text ih =>
      rcases cutId_cons_cases cut with ⟨others, rfl, belongs, cutRest⟩ | ⟨rfl, _⟩
      · exact List.forall_mem_cons.mpr ⟨isIdPart_of_isIdChar belongs, ih cutRest⟩
      · simp

theorem covers_ident : Covers IsPlain ident := by
  refine .bind (covers_span (fun _ => isPlain_of_isAsciiSpace) ?_ ?_) fun taken => ?_
  · exact fun cursor => (cutId_of_cutId rfl).1
  · exact fun cursor c member => isPlain_of_isIdPart (isIdPart_of_cutId rfl c member)
  · cases taken with
    | nil => exact .throw _
    | cons c others => exact .pure _

/-- A word may hold anything but white space and what ends it. -/
theorem covers_wordUpTo {ends : Char → Bool} (stops : ends ';' = true) :
    Covers (· ≠ ';') (wordUpTo ends) := by
  refine .bind (covers_span (fun _ blank => (isPlain_of_isAsciiSpace blank).1) ?_ ?_)
    fun taken => ?_
  · exact fun cursor => List.takeWhile_append_dropWhile.symm
  · rintro cursor c member rfl
    have belongs := List.all_eq_true.mp List.all_takeWhile ';' member
    simp [stops] at belongs
  · cases taken with
    | nil => exact .throw _
    | cons c others => exact .pure _

theorem covers_endpoint : Covers IsPlain endpoint := by
  refine .bind (covers_span (fun _ => isPlain_of_isAsciiSpace) ?_ ?_) fun digits => ?_
  · exact fun cursor => List.takeWhile_append_dropWhile.symm
  · exact fun cursor c member =>
      isPlain_of_isDigit (List.all_eq_true.mp List.all_takeWhile c member)
  refine .ite (.throw _) ?_
  cases (readNat? 10 digits).filter (· ≤ Port.maxNumber) with
  | none => exact .throw _
  | some number =>
      refine fun start => .bind (returns_get _) fun cursor => ?_
      split
      · rename_i rest isRest
        have slash : Returns (fun moved => cursor = moved ∧ LeadsTo IsPlain start cursor)
            (set (cursor.past ['/'] rest)) fun _ => LeadsTo IsPlain start := by
          rintro _ _ _ ⟨rfl, leads⟩ ⟨⟩
          exact leads.trans ⟨['/'], isRest, by simp [IsPlain]⟩
        refine .bind slash fun _ => ?_
        split
        · rename_i transport _
          have keyword : Covers IsPlain (expect transport.keyword) :=
            covers_expect (by cases transport <;> rfl)
          exact .bind (keyword start) fun _ => .pure fun _ => id
        · exact .throw _
      · exact .pure fun _ known => known.1 ▸ known.2

theorem covers_ports : Covers IsPlain ports := by
  refine .bind (.bind covers_endpoint fun first => .loop (fun taken => ?_) _) fun found => ?_
  · refine .bind (covers_accept rfl) fun _ => .ite ?_ (.pure _)
    exact .bind covers_endpoint fun _ => .pure _
  · split
    · exact .pure _
    · exact .throw _

end Reader

namespace Statement

open Reader

variable {α : Type}

/-! ## Analyzers -/

theorem covers_clauses {allowed : Char → Prop} {clause : α → Reader α}
    (plain : ∀ c, IsPlain c → allowed c) (reads : ∀ analyzer, Covers allowed (clause analyzer))
    (start : α) : Covers allowed (clauses clause start) := by
  refine .loop (fun analyzer => .bind (reads analyzer) fun changed => ?_) start
  refine .bind (covers_sees _) fun _ => .ite (.pure _) ?_
  exact .bind ((covers_expect rfl).mono plain) fun _ => .pure _

theorem covers_withUnit {result : QualName → α} :
    Covers IsPlain (do expect "with"; return result (← ident)) :=
  .bind (covers_expect rfl) fun _ => .bind covers_ident fun _ => .pure _

theorem covers_directions (analyzer : ProtocolAnalyzer) :
    Covers IsPlain (directions analyzer) := by
  refine .bind (covers_accept rfl) fun _ => .ite covers_withUnit ?_
  refine .bind (covers_accept rfl) fun _ => .ite covers_withUnit ?_
  exact .bind (covers_sees _) fun _ => .ite covers_withUnit (.throw _)

theorem covers_portList : Covers IsPlain portList := by
  refine .bind (covers_expect rfl) fun _ => .loop (fun taken => ?_) _
  refine .bind covers_ports fun more => .bind (covers_accept rfl) fun _ => ?_
  exact .ite (.pure _) (.bind (covers_expect rfl) fun _ => .pure _)

theorem covers_protocolClause (analyzer : ProtocolAnalyzer) :
    Covers IsPlain (protocolClause analyzer) := by
  refine .bind (covers_accept rfl) fun _ => .ite (covers_directions analyzer) ?_
  refine .bind (covers_accept rfl) fun _ =>
    .ite (.bind covers_portList fun _ => .pure _) ?_
  refine .bind (covers_accept rfl) fun _ => .ite (.bind covers_ports fun _ => .pure _) ?_
  refine .bind (covers_accept rfl) fun _ => .ite (.bind covers_ident fun _ => .pure _) ?_
  exact .throw _

theorem covers_transport : Covers IsPlain transport := by
  refine .bind covers_ident fun name => ?_
  dsimp only
  split
  · exact .pure _
  · exact .throw _

theorem covers_protocolAnalyzer (location : Location) :
    Covers IsPlain (protocolAnalyzer location) := by
  refine .bind (covers_expect rfl) fun _ => .bind (covers_expect rfl) fun _ => ?_
  refine .bind covers_ident fun name => .bind (covers_expect rfl) fun _ => ?_
  refine .bind covers_transport fun carrier => .bind (covers_expect rfl) fun _ => ?_
  exact .bind (covers_clauses (fun _ => id) covers_protocolClause _) fun _ =>
    .ite (.throw _) (.pure _)

/-- A MIME type may hold quotes and backslashes, but no semicolon. -/
theorem covers_fileClause (analyzer : FileAnalyzer) :
    Covers (· ≠ ';') (fileClause analyzer) := by
  have plain : ∀ c, IsPlain c → c ≠ ';' := fun _ isPlain => isPlain.1
  refine .bind ((covers_accept rfl).mono plain) fun _ => .ite (covers_withUnit.mono plain) ?_
  refine .bind ((covers_accept rfl).mono plain) fun _ => .ite ?_ ?_
  · exact .bind (covers_wordUpTo (by decide)) fun _ => .pure _
  · refine .bind ((covers_accept rfl).mono plain) fun _ => .ite ?_ (.throw _)
    exact .bind (covers_ident.mono plain) fun _ => .pure _

/-- The head of a file or packet analyzer is plain. -/
theorem covers_afterHead {allowed : Char → Prop} {keyword : String} {rest : QualName → Reader α}
    (plain : ∀ c, IsPlain c → allowed c) (isPlain : isPlainToken keyword = true)
    (reads : ∀ name, Covers allowed (rest name)) :
    Covers allowed (do
      expect keyword
      expect "analyzer"
      let name ← ident
      expect ":"
      rest name) := by
  refine .bind ((covers_expect isPlain).mono plain) fun _ => ?_
  refine .bind ((covers_expect rfl).mono plain) fun _ => ?_
  refine .bind (covers_ident.mono plain) fun name => ?_
  exact .bind ((covers_expect rfl).mono plain) fun _ => reads name

theorem covers_fileAnalyzer (location : Location) :
    Covers (· ≠ ';') (fileAnalyzer location) :=
  covers_afterHead (fun _ isPlain => isPlain.1) rfl fun _ =>
    covers_clauses (fun _ isPlain => isPlain.1) covers_fileClause _

theorem covers_packetClause (version : Nat) (analyzer : PacketAnalyzer) :
    Covers IsPlain (packetClause version analyzer) := by
  refine .bind (covers_accept rfl) fun _ => .ite covers_withUnit ?_
  refine .bind (covers_sees _) fun _ => .ite (.ite (.throw _) ?_) (.throw _)
  exact .bind (covers_expect rfl) fun _ => .bind covers_ident fun _ => .pure _

theorem covers_packetAnalyzer (location : Location) (version : Nat) :
    Covers IsPlain (packetAnalyzer location version) :=
  covers_afterHead (fun _ => id) rfl fun _ =>
    covers_clauses (fun _ => id) (covers_packetClause version) _

end Statement

end AnalyzerGlue.Evt
