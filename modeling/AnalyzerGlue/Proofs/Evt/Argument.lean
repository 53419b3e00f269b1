import Mathlib.Control.Monad.Basic
import AnalyzerGlue.Evt.Load
import AnalyzerGlue.Proofs.Evt.Layout
import AnalyzerGlue.Proofs.Evt.Steps
import AnalyzerGlue.Proofs.Expr.Exactness
import AnalyzerGlue.Proofs.Text.Space

/-!
# Events with one argument

An accepted expression on one line can be the argument of an event: the scanner
finds the end of the statement behind it, and the cursor its own end.  This
fails for expressions with a string that ends in an escaped backslash, for the
scanner takes the quote behind the backslash for a part of the string.
-/

namespace AnalyzerGlue.Evt

open AnalyzerGlue.Text AnalyzerGlue.Token

/-! ## The argument -/

section

open Reader

/-- White space before a text does not change how it is laid out. -/
theorem Layout.of_space {c : Char} {rest : List Char} {level behind : Nat}
    (blank : isSpace c = true) (layout : Layout level (c :: rest) behind) :
    Layout level rest behind := by
  cases layout with
  | inert _ layout => exact layout
  | opening opens _ => rcases opens with rfl | rfl <;> exact absurd blank (by decide)
  | closing closes _ => rcases closes with rfl | rfl <;> exact absurd blank (by decide)
  | comma _ => exact absurd blank (by decide)
  | string _ _ _ => exact absurd blank (by decide)

theorem Layout.dropWhile {text : List Char} {level behind : Nat}
    (layout : Layout level text behind) :
    Layout level (text.dropWhile isAsciiSpace) behind := by
  induction text with
  | nil => exact layout
  | cons c rest ih =>
      cases ascii : isAsciiSpace c with
      | true =>
          rw [List.dropWhile_cons_of_pos ascii]
          exact ih (layout.of_space (isSpace_of_isAsciiSpace ascii))
      | false => rwa [List.dropWhile_cons_of_neg (by simp [ascii])]

/-- The place behind the white space before an argument. -/
theorem skipSpaces_append (seen text rest : List Char) :
    Cursor.skipSpaces ⟨seen, text ++ ')' :: rest⟩ =
      ⟨(text.takeWhile isAsciiSpace).reverse ++ seen,
        text.dropWhile isAsciiSpace ++ ')' :: rest⟩ := by
  rcases @span_append_cons isAsciiSpace ')' (by decide) text rest with ⟨taken, left⟩
  rw [Cursor.skipSpaces, taken, left]
  rfl

/-- An argument ends at the parenthesis that closes the list of arguments. -/
theorem expr_of_layout {text : List Char} (layout : Layout 0 text 0) (visible : trim text ≠ [])
    (seen rest : List Char) :
    expr ⟨seen, text ++ ')' :: rest⟩ =
      .ok (String.ofList (trim text)) ⟨text.reverse ++ seen, ')' :: rest⟩ := by
  have ends : cutExpr .code 0 (')' :: rest) = .ok ([], ')' :: rest) := by
    simp [cutExpr]
  have cut := cutExpr_of_layout layout.dropWhile ends
  rw [List.append_nil] at cut
  have skipped : spaces ⟨seen, text ++ ')' :: rest⟩ =
      .ok ⟨⟩ ⟨(text.takeWhile isAsciiSpace).reverse ++ seen,
        text.dropWhile isAsciiSpace ++ ')' :: rest⟩ := by
    rw [← skipSpaces_append]
    rfl
  have seenBehind : (text.dropWhile isAsciiSpace).reverse ++
      ((text.takeWhile isAsciiSpace).reverse ++ seen) = text.reverse ++ seen := by
    rw [← List.append_assoc, ← List.reverse_append, List.takeWhile_append_dropWhile]
  rw [expr, bind_of_eq_ok skipped, get_bind]
  simp only [cut]
  rcases List.exists_cons_of_ne_nil visible with ⟨c, tail, isCons⟩
  rw [set_bind, trim_dropWhile_isAsciiSpace, isCons, Cursor.past, seenBehind]
  rfl

/-- An argument that does not start with the closing parenthesis is taken as the
only one. -/
theorem arguments_of_layout {text : List Char} (layout : Layout 0 text 0) (visible : trim text ≠ [])
    (noClose : (text.dropWhile isAsciiSpace).head? ≠ some ')') (seen rest : List Char) :
    Statement.arguments ⟨seen, text ++ ')' :: rest⟩ =
      .ok [String.ofList (trim text)] ⟨')' :: (text.reverse ++ seen), rest⟩ := by
  have notClosed : Cursor.after? ⟨seen, text ++ ')' :: rest⟩ ")" = none := by
    rw [Cursor.after?, skipSpaces_append, Option.map_eq_none_iff]
    cases start : text.dropWhile isAsciiSpace with
    | nil => exact absurd (by rw [← trim_dropWhile_isAsciiSpace, start]; rfl) visible
    | cons c others =>
        have differs : ¬ ')' = c := by
          rintro rfl
          exact noClose (by rw [start]; rfl)
        exact if_neg differs
  have closed : Cursor.after? ⟨text.reverse ++ seen, ')' :: rest⟩ ")" =
      some ⟨')' :: (text.reverse ++ seen), rest⟩ := rfl
  rw [Statement.arguments, bind_of_eq_ok (accept_of_after?_eq_none notClosed)]
  simp only [Bool.false_eq_true, if_false]
  rw [bind_of_eq_ok (expr_of_layout layout visible seen rest)]
  apply loop_of_done
  rw [bind_of_eq_ok (accept_of_after?_eq_some closed)]
  rfl

end

/-! ## The statement -/

/-- What an event declaration starts with. -/
def eventStart : List Char :=
  "on A::U -> event e(".toList

/-- The declaration of an event with the given argument. -/
def eventSource (argument : List Char) : List Char :=
  eventStart ++ argument ++ [')', ';']

/-- Nothing is trimmed away before its start or behind a visible character. -/
theorem trim_eventStart {rest : List Char} {c : Char} (visible : isSpace c = false) :
    trim (eventStart ++ rest ++ [c]) = eventStart ++ rest ++ [c] := by
  refine trim_eq_self ?_ ?_
  · rintro d ⟨rfl⟩
    decide
  · rw [List.getLast?_concat]
    rintro d ⟨rfl⟩
    exact visible

/-- What is declared by it. -/
def declaredEvent (path : Path) (argument : List Char) : Event :=
  { Event.declare ⟨"A::U"⟩ ⟨"e"⟩ ⟨path, 1⟩ with exprs := [String.ofList (trim argument)] }

section

open Reader Statement

/-- The declaration is read up to its arguments and from there to its end. -/
theorem eventDecl_eventStart {location : Location} {rest seen : List Char} {exprs : List String}
    (read : arguments ⟨eventStart.reverse, rest⟩ = .ok exprs ⟨seen, [';']⟩) :
    eventDecl location (Cursor.start (eventStart ++ rest)) =
      .ok { Event.declare ⟨"A::U"⟩ ⟨"e"⟩ location with exprs := exprs } ⟨';' :: seen, []⟩ := by
  have on : expect "on" (Cursor.start (eventStart ++ rest)) =
      .ok ⟨⟩ ⟨"on".toList.reverse, " A::U -> event e(".toList ++ rest⟩ := rfl
  have unit : ident ⟨"on".toList.reverse, " A::U -> event e(".toList ++ rest⟩ =
      .ok ⟨"A::U"⟩ ⟨"on A::U".toList.reverse, " -> event e(".toList ++ rest⟩ := rfl
  have unconditional : condition ⟨"on A::U".toList.reverse, " -> event e(".toList ++ rest⟩ =
      .ok none ⟨"on A::U".toList.reverse, " -> event e(".toList ++ rest⟩ := rfl
  have arrow : expect "->" ⟨"on A::U".toList.reverse, " -> event e(".toList ++ rest⟩ =
      .ok ⟨⟩ ⟨"on A::U ->".toList.reverse, " event e(".toList ++ rest⟩ := rfl
  have keyword : expect "event" ⟨"on A::U ->".toList.reverse, " event e(".toList ++ rest⟩ =
      .ok ⟨⟩ ⟨"on A::U -> event".toList.reverse, " e(".toList ++ rest⟩ := rfl
  have name : ident ⟨"on A::U -> event".toList.reverse, " e(".toList ++ rest⟩ =
      .ok ⟨"e"⟩ ⟨"on A::U -> event e".toList.reverse, '(' :: rest⟩ := rfl
  have opening : expect "(" ⟨"on A::U -> event e".toList.reverse, '(' :: rest⟩ =
      .ok ⟨⟩ ⟨eventStart.reverse, rest⟩ := rfl
  have noPriority : priority ⟨seen, [';']⟩ = .ok Event.defaultPriority ⟨seen, [';']⟩ := rfl
  have semicolon : expect ";" ⟨seen, [';']⟩ = .ok ⟨⟩ ⟨';' :: seen, []⟩ := rfl
  rw [eventDecl, bind_of_eq_ok on, bind_of_eq_ok unit, bind_of_eq_ok unconditional,
    bind_of_eq_ok arrow, bind_of_eq_ok keyword, bind_of_eq_ok name, bind_of_eq_ok opening,
    bind_of_eq_ok read, bind_of_eq_ok noPriority, bind_of_eq_ok semicolon]
  rfl

theorem parse_eventSource {location : Location} {version : Nat} {argument : List Char}
    (layout : Layout 0 argument 0) (visible : trim argument ≠ [])
    (noClose : (argument.dropWhile isAsciiSpace).head? ≠ some ')') :
    Statement.parse (eventSource argument) location version =
      .ok (.event { Event.declare ⟨"A::U"⟩ ⟨"e"⟩ location with
        exprs := [String.ofList (trim argument)] }) := by
  have taken := arguments_of_layout layout visible noClose eventStart.reverse [';']
  have read := @eventDecl_eventStart location _ _ _ taken
  have noProtocol : sees "protocol" (Cursor.start (eventSource argument)) =
      .ok false (Cursor.start (eventSource argument)) := rfl
  have noFile : sees "file" (Cursor.start (eventSource argument)) =
      .ok false (Cursor.start (eventSource argument)) := rfl
  have noPacket : sees "packet" (Cursor.start (eventSource argument)) =
      .ok false (Cursor.start (eventSource argument)) := rfl
  have isEvent : sees "on" (Cursor.start (eventSource argument)) =
      .ok true (Cursor.start (eventSource argument)) := rfl
  have isSource : eventSource argument = eventStart ++ (argument ++ [')', ';']) := by
    rw [eventSource, List.append_assoc]
  rw [Statement.parse, run, reader, bind_of_eq_ok noProtocol, if_neg Bool.false_ne_true,
    bind_of_eq_ok noFile, if_neg Bool.false_ne_true, bind_of_eq_ok noPacket,
    if_neg Bool.false_ne_true, bind_of_eq_ok isEvent, if_pos rfl, isSource, bind_of_eq_ok read]
  rfl

end

/-! ## The scanner -/

section

open Scanner

/-- The scanner stops behind the semicolon and goes on at the end of the line. -/
theorem next_eventSource {argument : List Char} (layout : Layout 0 argument 0)
    (oneLine : '\n' ∉ argument) :
    next (start (eventSource argument ++ ['\n'])) =
      (.chunk ⟨eventSource argument, 1⟩, ⟨['\n'], 1⟩) := by
  rcases @keeps_of_layout _ _ _ layout oneLine
      eventStart.reverse [')', ';', '\n'] 1 1 (by decide) with ⟨kept, unescaped⟩
  have isText : Partial.text ⟨.plain, ')' :: (argument.reverse ++ eventStart.reverse), some 1, 1⟩ =
      eventStart ++ argument ++ [')'] := by
    rw [Partial.text, List.reverse_cons, List.reverse_append, List.reverse_reverse,
      List.reverse_reverse, trim_eventStart (by decide)]
  calc
    next (start (eventSource argument ++ ['\n'])) =
        nextFrom ⟨.plain, eventStart.reverse, some 1, 1⟩ (argument ++ [')', ';', '\n']) := by
      rw [eventSource, List.append_assoc, List.append_assoc]
      rfl
    _ = nextFrom ⟨.plain, ')' :: (argument.reverse ++ eventStart.reverse), some 1, 1⟩
        [';', '\n'] := by
      rw [kept, nextFrom_plain_cons unescaped (by decide) (by decide)]
    _ = (Partial.close ⟨.plain, ')' :: (argument.reverse ++ eventStart.reverse), some 1, 1⟩,
        ⟨['\n'], 1⟩) := by
      rw [nextFrom]
      simp [Partial.escaped]
    _ = (.chunk ⟨eventSource argument, 1⟩, ⟨['\n'], 1⟩) := by
      rw [Partial.close, isText, if_neg (by simp), List.append_assoc]
      rfl

/-- The scanner finds the statement and nothing else. -/
theorem all_eventSource {argument : List Char} (layout : Layout 0 argument 0)
    (oneLine : '\n' ∉ argument) :
    all (start (eventSource argument ++ ['\n'])) =
      [(.chunk ⟨eventSource argument, 1⟩, 1), (.finished, 2)] := by
  have first := next_eventSource layout oneLine
  have second : next ⟨['\n'], 1⟩ = (.finished, ⟨[], 2⟩) := rfl
  rw [all_of_next first (by simp), all_of_finished second]

end

/-! ## Loading -/

/-- One line that is no directive goes through the conditional parts unchanged. -/
theorem filter_eventSource {argument : List Char} (oneLine : '\n' ∉ argument) (path : Path)
    (version : Nat) :
    ((Conditional.start version).filter path (eventSource argument)).2 =
      .ok (eventSource argument ++ ['\n']) := by
  have noFeed : '\n' ∉ eventSource argument := by
    simp only [eventSource, List.mem_append, not_or]
    exact ⟨⟨by decide, oneLine⟩, by decide⟩
  have isLine := lines_of_not_mem noFeed (by simp [eventSource])
  have visible : trim (eventSource argument) = eventSource argument := by
    have trimmed := @trim_eventStart (argument ++ [')']) ';' (by decide)
    rwa [List.append_assoc, List.append_assoc] at trimmed
  have noDirective : Conditional.directive? (eventSource argument) = none := by
    rw [Conditional.directive?, visible]
    rfl
  simp [Conditional.filter, isLine, Conditional.filterLines, noDirective, Conditional.isOpen,
    Conditional.start, Conditional.keeps, Except.map]

/-- The text of an expression is laid out without open brackets.  It is not blank,
and it does not start with a closing parenthesis. -/
theorem layout_of_parse {argument : String} {location : Option Location} {tree : Expr}
    (accepted : Expr.parse argument location = .ok tree)
    (free : ¬ ClosesBehindBackslash argument.toList) :
    Layout 0 argument.toList 0 ∧ trim argument.toList ≠ [] ∧
      (argument.toList.dropWhile isAsciiSpace).head? ≠ some ')' := by
  rcases Expr.parse_eq_ok_iff.mp accepted with ⟨kinds, spells, derived⟩
  have keeps := Expr.keepsLevel_of_derives derived 0 (Nat.le_refl 0)
  refine ⟨layout_of_spells spells keeps free, ?_⟩
  rcases derived.exists_first with isEmpty | ⟨first, others, rfl, starts⟩
  · cases isEmpty
  constructor
  · intro blank
    rcases spells.exists_visible with ⟨blanks, c, rest, isText, allBlank, visible⟩
    rcases exists_trim_eq_cons allBlank visible rest with ⟨tail, trimmed⟩
    rw [← isText, blank] at trimmed
    cases trimmed
  · have spellsBehind := spells.dropWhile fun c => @isSpace_of_isAsciiSpace c
    exact Expr.head?_ne_of_startsExpr (c := ')') rfl
      (fun sign isFirst => by
        cases sign <;> cases isFirst
        rfl) spellsBehind starts

/-- A string of one backslash is accepted, and its closing quote is behind a
backslash. -/
theorem closesBehindBackslash_backslash : ClosesBehindBackslash ['"', '\\', '\\', '"'] := by
  have isToken : spellings ['"', '\\', '\\', '"'] =
      [(['"', '\\', '\\', '"'], .string "\\")] := by decide +kernel
  rw [ClosesBehindBackslash, isToken]
  exact ⟨_, List.mem_cons_self, trivial, ⟨['"', '\\'], rfl⟩⟩

/-- The scanner takes the rest of the source for a part of this string. -/
theorem load_backslash (path : Path) (version : Nat) :
    Store.load path (eventSource ['"', '\\', '\\', '"']) version =
      .error (.reportedAt .unexpectedEnd ⟨path, 2⟩) := by
  have inString : Scanner.next (.start (eventSource ['"', '\\', '\\', '"'] ++ ['\n'])) =
      (.error .unexpectedEnd 2, ⟨[], 2⟩) := rfl
  simp only [Store.load, @filter_eventSource ['"', '\\', '\\', '"'] (by decide),
    Scanner.all_of_next inString, List.map_cons, Store.addAll, Store.addScanned,
    ne_eq, reduceCtorEq, not_false_eq_true]

/-- If an accepted text is on one line and no string in it is closed behind a
backslash, the event with the text as its argument is the one declaration of its
source.  The condition on strings is needed: there is an accepted text on one
line for which the end of the source is reached inside of a string. -/
theorem load_eventSource :
    (∀ (argument : String) (location : Option Location) (tree : Expr) (path : Path)
      (version : Nat), '\n' ∉ argument.toList → Expr.parse argument location = .ok tree →
      ¬ ClosesBehindBackslash argument.toList →
      Store.load path (eventSource argument.toList) version =
        .ok { Store.empty with events := [declaredEvent path argument.toList] }) ∧
    ∃ (argument : String) (tree : Expr), '\n' ∉ argument.toList ∧
      Expr.parse argument none = .ok tree ∧ ClosesBehindBackslash argument.toList ∧
      ∀ (path : Path) (version : Nat),
        Store.load path (eventSource argument.toList) version =
          .error (.reportedAt .unexpectedEnd ⟨path, 2⟩) := by
  constructor
  · intro argument location tree path version oneLine accepted free
    rcases layout_of_parse accepted free with ⟨layout, visible, noClose⟩
    have parsed := @parse_eventSource ⟨path, 1⟩ version _ layout visible noClose
    simp only [Store.load, filter_eventSource oneLine, all_eventSource layout oneLine,
      List.map_cons, List.map_nil, Store.addAll, Store.addScanned, parsed]
    rfl
  · exact ⟨"\"\\\\\"", .atom (.string "\\") none, by decide, by decide +kernel,
      closesBehindBackslash_backslash, load_backslash⟩

/-- An argument with brackets, and with a string that holds all that would end the
argument or the statement. -/
theorem load_eventSource_quoted :
    let argument := " f([a, 1], b\"x;)#\\\"\") "
    ¬ ClosesBehindBackslash argument.toList ∧
      Store.load ⟨"x.evt"⟩ (eventSource argument.toList) 0 =
        .ok { Store.empty with events := [declaredEvent ⟨"x.evt"⟩ argument.toList] } := by
  intro argument
  have free : ¬ ClosesBehindBackslash argument.toList := by decide +kernel
  have accepted : Expr.parse argument none =
      .ok (.apply .call [.atom (.id ⟨"f"⟩) none,
        .vector [.atom (.id ⟨"a"⟩) none, .atom (.int 1) none] none,
        .atom (.bytes "x;)#\"") none] none) := by decide +kernel
  exact ⟨free, load_eventSource.1 argument none _ _ _ (by decide) accepted free⟩

end AnalyzerGlue.Evt
