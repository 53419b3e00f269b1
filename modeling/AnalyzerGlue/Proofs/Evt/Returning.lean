import AnalyzerGlue.Proofs.Evt.Steps
import AnalyzerGlue.Proofs.Evt.Words

/-!
# What readers return

`Returns` says what is known of the value and the place behind a reader whenever it
returns, from what is known of the place before it.  Two things about places matter.
An id is read whole only behind something else than a colon, and an expression is
known to be balanced only once something is found behind it.
-/

namespace AnalyzerGlue.Evt.Reader

open AnalyzerGlue.Text

variable {α β : Type}

/-- If the reader returns from a place with the first property, the value and the
place it moves to have the second. -/
def Returns (before : Cursor → Prop) (reader : Reader α) (behind : α → Cursor → Prop) : Prop :=
  ∀ cursor value moved, before cursor → reader cursor = .ok value moved → behind value moved

/-- Nothing is known of a place. -/
def Anywhere (_ : Cursor) : Prop :=
  True

/-- A token has just been taken. -/
def Behind (token : String) (cursor : Cursor) : Prop :=
  cursor.seen.head? = token.toList.getLast?

namespace Returns

variable {before middle : Cursor → Prop} {first other : Reader α} {behind : α → Cursor → Prop}

theorem pure {value : α} (holds : ∀ cursor, before cursor → behind value cursor) :
    Returns before (pure value) behind := by
  rintro cursor _ _ known ⟨⟩
  exact holds cursor known

theorem throw (cause : EvtError) : Returns before (throw cause) behind := by
  rintro _ _ _ _ ⟨⟩

theorem bind {second : α → Reader β} {result : β → Cursor → Prop}
    (reads : Returns before first behind)
    (next : ∀ value, Returns (behind value) (second value) result) :
    Returns before (first >>= second) result := by
  intro cursor value moved known read
  change EStateM.bind first second cursor = _ at read
  unfold EStateM.bind at read
  split at read
  · rename_i found there isRead
    exact next found there value moved (reads cursor found there known isRead) read
  · cases read

/-- Nothing need be known of what a reader returns. -/
theorem anything (reader : Reader α) : Returns before reader fun _ => Anywhere :=
  fun _ _ _ _ _ => trivial

theorem ite {condition : Prop} [Decidable condition]
    (whenTrue : condition → Returns before first behind)
    (whenFalse : ¬ condition → Returns before other behind) :
    Returns before (if condition then first else other) behind := by
  split
  · exact whenTrue ‹_›
  · exact whenFalse ‹_›

/-- A fact that is no matter of the place may be assumed. -/
theorem given {fact : Prop} (reads : fact → Returns Anywhere first behind) :
    Returns (fun _ => fact) first behind :=
  fun cursor value moved known => reads known cursor value moved trivial

/-- What is known before the first round and kept by each round is known before each
round, and what each round leads to is known behind the last one. -/
theorem loop (invariant : α → Cursor → Prop) {round : α → Reader (Round α)} {state : α}
    (starts : ∀ cursor, before cursor → invariant state cursor)
    (keeps : ∀ state, Returns (invariant state) (round state) fun outcome moved =>
      match outcome with
      | .again next => invariant next moved ∧ behind next moved
      | .done final => behind final moved) :
    Returns before (Reader.loop round state) behind := by
  intro cursor value moved known read
  have holds := starts cursor known
  clear starts known
  fun_induction Reader.loop round state cursor with
  | case1 => cases read
  | case2 state cursor final there isRead =>
      cases read
      exact keeps state cursor _ _ holds isRead
  | case3 state cursor next there isRead _ ih =>
      exact ih read (keeps state cursor _ _ holds isRead).1
  | case4 state cursor next there isRead _ =>
      cases read
      exact (keeps state cursor _ _ holds isRead).2

end Returns

/-! ## Tokens -/

/-- Where a token follows, the text is not at its end. -/
theorem behind_of_after?_eq_some {cursor moved : Cursor} {token : String}
    (notEmpty : token.toList ≠ []) (follows : cursor.after? token = some moved) :
    Behind token moved ∧ cursor.rest ≠ [] := by
  rcases Option.map_eq_some_iff.mp follows with ⟨rest, isStart, rfl⟩
  rcases List.exists_cons_of_ne_nil notEmpty with ⟨c, others, isToken⟩
  constructor
  · rw [Behind, Cursor.past, List.head?_append, List.head?_reverse]
    rw [Option.or_of_isSome (by simp [isToken])]
  · intro isNil
    rw [Cursor.skipSpaces, isNil, isToken] at isStart
    cases isStart

section

variable {before : Cursor → Prop} {token : String}

/-- A fact that holds unless the text is at its end is known behind a token. -/
theorem returns_expect {fact : Prop} (notEmpty : token.toList ≠ [])
    (known : ∀ cursor, before cursor → cursor.rest ≠ [] → fact) :
    Returns before (expect token) fun _ moved => fact ∧ Behind token moved := by
  intro cursor _ moved holds read
  rw [expect, get_bind] at read
  cases follows : cursor.after? token with
  | none =>
      rw [follows] at read
      cases read
  | some there =>
      rw [follows] at read
      cases read
      rcases behind_of_after?_eq_some notEmpty follows with ⟨isBehind, notEnd⟩
      exact ⟨known cursor holds notEnd, isBehind⟩

/-- Behind a token that is not accepted, the place is the same. -/
theorem returns_accept {fact : Prop} (notEmpty : token.toList ≠ [])
    (known : ∀ cursor, before cursor → cursor.rest ≠ [] → fact) :
    Returns before (accept token) fun found moved =>
      if found then fact ∧ Behind token moved else before moved := by
  intro cursor _ moved holds read
  cases follows : cursor.after? token with
  | none =>
      rw [accept_of_after?_eq_none follows] at read
      cases read
      exact holds
  | some there =>
      rw [accept_of_after?_eq_some follows] at read
      cases read
      rcases behind_of_after?_eq_some notEmpty follows with ⟨isBehind, notEnd⟩
      exact ⟨known cursor holds notEnd, isBehind⟩

end

/-! ## Words and numbers -/

/-- White space ends in white space. -/
theorem noColon_skipSpaces {cursor : Cursor} (noColon : cursor.seen.head? ≠ some ':') :
    cursor.skipSpaces.seen.head? ≠ some ':' := by
  rw [Cursor.skipSpaces, Cursor.past, List.head?_append, List.head?_reverse]
  cases isLast : (cursor.rest.takeWhile isAsciiSpace).getLast? with
  | none => exact noColon
  | some c =>
      rintro ⟨rfl⟩
      have blank := List.all_eq_true.mp (@List.all_takeWhile _ isAsciiSpace cursor.rest) ':'
        (List.mem_of_getLast? isLast)
      exact absurd blank (by decide)

/-- What a span takes is cut off the text behind white space. -/
theorem returns_span {before : Cursor → Prop} (cut : Cursor → List Char × List Char) :
    Returns before (span cut) fun taken _ =>
      ∃ cursor, before cursor ∧ taken = (cut cursor.skipSpaces).1 := by
  rintro cursor _ _ holds ⟨⟩
  exact ⟨cursor, holds, rfl⟩

/-- An id is read whole behind a token that does not end in a colon. -/
theorem returns_ident {token : String} (noColon : token.toList.getLast? ≠ some ':') :
    Returns (Behind token) ident fun name _ => IsId name.text.toList := by
  refine .bind (returns_span _) fun taken => ?_
  rintro _ name _ ⟨cursor, isBehind, isTaken⟩ read
  cases taken with
  | nil => cases read
  | cons c others =>
      cases read
      have free : cursor.skipSpaces.seen.head? ≠ some ':' :=
        noColon_skipSpaces (by rwa [isBehind])
      rw [QualName.ofWritten, String.toList_ofList]
      exact isId_of_cutId (Prod.ext isTaken.symm rfl) free (by simp)

theorem returns_wordUpTo {before : Cursor → Prop} (ends : Char → Bool) :
    Returns before (wordUpTo ends) fun word _ => IsWord ends word.toList := by
  refine .bind (returns_span _) fun taken => ?_
  rintro _ word _ ⟨cursor, _, isTaken⟩ read
  cases taken with
  | nil => cases read
  | cons c others =>
      cases read
      rw [String.toList_ofList]
      refine ⟨by simp, ?_⟩
      rw [isTaken]
      exact List.all_eq_true.mp List.all_takeWhile

theorem bounds_of_readSigned? {text : List Char} {value : Int}
    (read : readSigned? text = some value) : minSigned ≤ value ∧ value ≤ maxSigned := by
  have checked : ∀ {number : Int},
      (if minSigned ≤ number ∧ number ≤ maxSigned then some number else none) = some value →
        minSigned ≤ value ∧ value ≤ maxSigned := by
    intro number isNumber
    split at isNumber
    · cases isNumber
      assumption
    · cases isNumber
  unfold readSigned? at read
  split at read
  all_goals
    rcases Option.bind_eq_some_iff.mp read with ⟨number, _, isNumber⟩
    exact checked isNumber

theorem returns_integer {before : Cursor → Prop} :
    Returns before integer fun value _ => minSigned ≤ value ∧ value ≤ maxSigned := by
  refine .bind (.anything _) fun _ => .bind (.anything _) fun cursor => ?_
  refine .ite (fun _ => .throw _) fun _ => .bind (.anything _) fun _ => ?_
  split
  · rename_i read
    exact .pure fun _ _ => bounds_of_readSigned? read
  · exact .throw _

/-! ## Ports -/

theorem returns_endpoint {before : Cursor → Prop} :
    Returns before endpoint fun found _ => found.number ≤ Port.maxNumber := by
  refine .bind (.anything _) fun digits => .ite (fun _ => .throw _) fun _ => ?_
  split
  · exact .throw _
  · rename_i number isNumber
    have bounded : number ≤ Port.maxNumber := by
      simpa using (Option.filter_eq_some_iff.mp isNumber).2
    refine .bind (.anything _) fun cursor => ?_
    split
    · refine .bind (.anything _) fun _ => ?_
      split
      · exact .bind (.anything _) fun _ => .pure fun _ _ => bounded
      · exact .throw _
    · exact .pure fun _ _ => bounded

/-- The endpoints of ports that exist. -/
def Bounded (taken : List Endpoint) : Prop :=
  ∀ found ∈ taken, found.number ≤ Port.maxNumber

theorem Bounded.append_singleton {taken : List Endpoint} {last : Endpoint}
    (bounded : Bounded taken) (isLast : last.number ≤ Port.maxNumber) :
    Bounded (taken ++ [last]) := by
  intro found member
  rcases List.mem_append.mp member with isTaken | isNew
  · exact bounded found isTaken
  · cases List.mem_singleton.mp isNew
    exact isLast

theorem returns_endpoints {before : Cursor → Prop} :
    Returns before endpoints fun taken _ => Bounded taken := by
  refine .bind returns_endpoint fun first => .loop (fun taken _ => Bounded taken) ?_ ?_
  · exact fun _ isFirst found member => List.mem_singleton.mp member ▸ isFirst
  · refine fun taken => .given fun bounded => .bind (.anything _) fun _ => .ite (fun _ => ?_) ?_
    · refine .bind returns_endpoint fun next => .given fun isNext => .pure fun _ _ => ?_
      have bounded := bounded.append_singleton isNext
      exact ⟨bounded, bounded⟩
    · exact fun _ => .pure fun _ _ => bounded

theorem bounded_of_portsOf {endpoints : List Endpoint} {ports : List Port}
    (bounded : Bounded endpoints) (found : portsOf endpoints = .ok ports) :
    ∀ port ∈ ports, port.number ≤ Port.maxNumber := by
  unfold portsOf at found
  split at found
  · cases found
  split at found
  · cases found
  split at found
  · rename_i single _
    cases found
    intro port member
    cases List.mem_singleton.mp member
    exact bounded single List.mem_cons_self
  · rename_i first last _
    split at found
    · cases found
    split at found
    · cases found
    cases found
    -- Every port of a range is at most the last one.
    intro port member
    rcases List.mem_map.mp member with ⟨number, inRange, rfl⟩
    have isLast := bounded last (by simp)
    rw [List.mem_range'_1] at inRange
    show number ≤ Port.maxNumber
    omega
  · cases found

theorem returns_ports {before : Cursor → Prop} :
    Returns before ports fun taken _ => ∀ port ∈ taken, port.number ≤ Port.maxNumber := by
  refine .bind returns_endpoints fun taken => ?_
  split
  · rename_i found
    exact .pure fun _ bounded => bounded_of_portsOf bounded found
  · exact .throw _

/-! ## Expressions -/

/-- An expression is an argument if something follows it. -/
theorem returns_expr {before : Cursor → Prop} :
    Returns before expr fun text moved => moved.rest ≠ [] → IsArgument text.toList := by
  refine .bind (.anything _) fun _ => .bind (.anything _) fun cursor => ?_
  split
  · exact .throw _
  · rename_i taken rest cut
    intro _ text moved _ read
    rw [set_bind] at read
    cases isTrimmed : trim taken with
    | nil =>
        rw [isTrimmed] at read
        cases read
    | cons c others =>
        rw [isTrimmed] at read
        cases read
        intro notEnd
        cases rest with
        | nil => exact absurd rfl notEnd
        | cons d rest =>
            have isArgument := isArgument_of_cutExpr cut (by simp [isTrimmed])
            rwa [isTrimmed, ← @String.toList_ofList (c :: others)] at isArgument

end AnalyzerGlue.Evt.Reader
