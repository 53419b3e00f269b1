import AnalyzerGlue.Proofs.Evt.Covering
import AnalyzerGlue.Proofs.Evt.Taking

/-!
# Parts of a text that follow each other

What a reader takes is described by how a text before it goes on to the text behind it:
with a token, with an id, or with items that have separators between them.  Such
descriptions are `Unambiguous` if a text can be read in one way only.  Readers that return
are taken apart into the readers they are made of.
-/

namespace AnalyzerGlue.Evt.Reader

open AnalyzerGlue.Text

variable {α β : Type}

/-! ## Tokens behind white space -/

/-- Behind white space the text goes on with a token, and then with the rest. -/
def Follows (token : String) (text rest : List Char) : Prop :=
  ∃ blanks, blanks.all isAsciiSpace = true ∧ text = blanks ++ (token.toList ++ rest)

/-- A token follows. -/
def Before (token : String) (text : List Char) : Prop :=
  ∃ rest, Follows token text rest

/-- Whether white space before a token cannot belong to it. -/
def isVisible (token : String) : Bool :=
  token.toList.head?.any fun c => !isAsciiSpace c

/-- Whether a text cannot go on with both of two tokens. -/
def areApart (token other : String) : Bool :=
  isVisible token && isVisible other && !token.toList.isPrefixOf other.toList &&
    !other.toList.isPrefixOf token.toList

theorem exists_cons_of_isVisible {token : String} (visible : isVisible token = true) :
    ∃ c others, token.toList = c :: others ∧ isAsciiSpace c = false := by
  rw [isVisible, Option.any_eq_true] at visible
  rcases visible with ⟨c, isHead, isShown⟩
  rcases List.head?_eq_some_iff.mp isHead with ⟨others, isToken⟩
  exact ⟨c, others, isToken, by simpa using isShown⟩

theorem isVisible_keyword (transport : Transport) : isVisible transport.keyword = true := by
  cases transport <;> rfl

section

variable {cursor moved : Cursor} {token other : String} {text rest tail : List Char}

/-- White space is passed over up to the token. -/
theorem Follows.dropWhile_eq (visible : isVisible token = true)
    (follows : Follows token text rest) : text.dropWhile isAsciiSpace = token.toList ++ rest := by
  rcases exists_cons_of_isVisible visible with ⟨c, others, isToken, isShown⟩
  rcases follows with ⟨blanks, blank, rfl⟩
  rw [List.dropWhile_append_of_pos (List.all_eq_true.mp blank), isToken]
  exact List.dropWhile_cons_of_neg (by simp [isShown])

theorem Follows.unique (visible : isVisible token = true) (first : Follows token text rest)
    (second : Follows token text tail) : rest = tail := by
  have same := first.dropWhile_eq visible
  rw [second.dropWhile_eq visible] at same
  exact (List.append_cancel_left same).symm

theorem Follows.not_follows (apart : areApart token other = true)
    (first : Follows token text rest) : ¬ Follows other text tail := by
  intro second
  simp only [areApart, Bool.and_eq_true, Bool.not_eq_true'] at apart
  rcases apart with ⟨⟨⟨visible, visibleToo⟩, noStart⟩, noStartToo⟩
  have same : token.toList ++ rest = other.toList ++ tail := by
    rw [← first.dropWhile_eq visible, second.dropWhile_eq visibleToo]
  rcases List.append_eq_append_iff.mp same with ⟨more, isOther, _⟩ | ⟨more, isToken, _⟩
  · rw [List.isPrefixOf_iff_prefix.mpr ⟨more, isOther.symm⟩] at noStart
    cases noStart
  · rw [List.isPrefixOf_iff_prefix.mpr ⟨more, isToken.symm⟩] at noStartToo
    cases noStartToo

/-- A token takes something off the text. -/
theorem Follows.length_lt (visible : isVisible token = true) (follows : Follows token text rest) :
    rest.length < text.length := by
  rcases exists_cons_of_isVisible visible with ⟨c, others, isToken, _⟩
  rcases follows with ⟨blanks, _, rfl⟩
  rw [isToken]
  simp only [List.length_append, List.length_cons]
  omega

theorem after?_of_follows (visible : isVisible token = true)
    (follows : Follows token cursor.rest rest) :
    ∃ moved, cursor.after? token = some moved ∧ moved.rest = rest := by
  have isStart : dropStart? token.toList cursor.skipSpaces.rest = some rest :=
    dropStart?_eq_some_iff.mpr (follows.dropWhile_eq visible)
  refine ⟨cursor.skipSpaces.past token.toList rest, ?_, rfl⟩
  rw [Cursor.after?, isStart]
  rfl

theorem after?_eq_none_iff (visible : isVisible token = true) :
    cursor.after? token = none ↔ ∀ rest, ¬ Follows token cursor.rest rest := by
  constructor
  · intro absent rest follows
    rcases after?_of_follows visible follows with ⟨moved, isMoved, _⟩
    rw [absent] at isMoved
    cases isMoved
  · intro absent
    cases follows : cursor.after? token with
    | none => rfl
    | some moved => exact absurd (exists_of_after?_eq_some follows) (absent moved.rest)

end

/-! ## Readers taken apart -/

section

variable {cursor moved : Cursor} {token : String}

/-- A reader that returns has gone through its first part and returned from the second. -/
theorem exists_of_bind_eq_ok {first : Reader α} {second : α → Reader β} {value : β}
    (read : (first >>= second) cursor = .ok value moved) :
    ∃ found there, first cursor = .ok found there ∧ second found there = .ok value moved := by
  change EStateM.bind first second cursor = _ at read
  unfold EStateM.bind at read
  split at read
  · exact ⟨_, _, ‹_›, read⟩
  · cases read

theorem exists_of_expect_bind_eq_ok {second : PUnit → Reader β} {value : β}
    (visible : isVisible token = true)
    (read : (expect token >>= second) cursor = .ok value moved) :
    ∃ there, Follows token cursor.rest there.rest ∧ Behind token there ∧
      second ⟨⟩ there = .ok value moved := by
  rcases exists_of_bind_eq_ok read with ⟨_, there, expected, goesOn⟩
  rcases exists_cons_of_isVisible visible with ⟨c, others, isToken, _⟩
  have isBehind := @returns_expect Anywhere token True (by simp [isToken]) (fun _ _ _ => trivial)
    cursor _ there trivial expected
  exact ⟨there, exists_of_expect_eq_ok expected, isBehind.2, goesOn⟩

/-- Where a token is accepted, one reader has gone on behind it; otherwise the other one
has gone on from the same place. -/
theorem accept_bind_eq_ok_cases {first other : Reader β} {value : β}
    (visible : isVisible token = true)
    (read : (do if ← accept token then first else other) cursor = .ok value moved) :
    (∃ there, Follows token cursor.rest there.rest ∧ Behind token there ∧
      first there = .ok value moved) ∨
    ((∀ rest, ¬ Follows token cursor.rest rest) ∧ other cursor = .ok value moved) := by
  rcases exists_of_bind_eq_ok read with ⟨found, there, isFound, goesOn⟩
  rcases accept_eq_ok_cases isFound with ⟨rfl, follows⟩ | ⟨rfl, absent, rfl⟩
  · rcases exists_cons_of_isVisible visible with ⟨c, others, isToken, _⟩
    have isBehind := behind_of_after?_eq_some (by simp [isToken]) follows
    exact .inl ⟨there, exists_of_after?_eq_some follows, isBehind.1, goesOn⟩
  · exact .inr ⟨(after?_eq_none_iff visible).mp absent, goesOn⟩

/-- A token that is seen follows, and nothing is taken. -/
theorem sees_bind_eq_ok_cases {first other : Reader β} {value : β}
    (read : (do if ← sees token then first else other) cursor = .ok value moved) :
    (Before token cursor.rest ∧ first cursor = .ok value moved) ∨
      other cursor = .ok value moved := by
  rcases exists_of_bind_eq_ok read with ⟨found, there, isFound, goesOn⟩
  cases isFound
  cases isSeen : cursor.at? token with
  | false =>
      rw [isSeen] at goesOn
      exact .inr goesOn
  | true =>
      rw [isSeen] at goesOn
      rcases Option.isSome_iff_exists.mp isSeen with ⟨behind, follows⟩
      exact .inl ⟨⟨behind.rest, exists_of_after?_eq_some follows⟩, goesOn⟩

/-- What a loop does follows from what its rounds do, the last one first, if every round
that wants another one moves the cursor. -/
theorem loop_of_rounds {round : α → Reader (Round α)}
    (relates : α → List Char → α → List Char → Prop)
    (done : ∀ {state cursor final moved}, round state cursor = .ok (.done final) moved →
      relates state cursor.rest final moved.rest)
    (again : ∀ {state cursor next there}, round state cursor = .ok (.again next) there →
      there.rest.length < cursor.rest.length ∧
        ∀ {final rest}, relates next there.rest final rest → relates state cursor.rest final rest)
    {state final : α} (read : loop round state cursor = .ok final moved) :
    relates state cursor.rest final moved.rest := by
  fun_induction loop round state cursor with
  | case1 => cases read
  | case2 state cursor final there isRead =>
      cases read
      exact done isRead
  | case3 state cursor next there isRead _ ih => exact (again isRead).2 (ih read)
  | case4 state cursor next there isRead stays => exact absurd (again isRead).1 stays

end

/-! ## Items with separators between them -/

/-- Items with separators between them, up to a text that stops them. -/
inductive Separated (item : α → List Char → List Char → Prop) (separator : String)
    (stops : List Char → Prop) : List α → List Char → List Char → Prop where
  | last {value : α} {text rest : List Char} :
      item value text rest → stops rest → Separated item separator stops [value] text rest
  | more {value : α} {values : List α} {text middle next rest : List Char} :
      item value text middle → Follows separator middle next →
        Separated item separator stops values next rest →
        Separated item separator stops (value :: values) text rest

/-- A text reads as an item in one way at most. -/
def Unambiguous (item : α → List Char → List Char → Prop) : Prop :=
  ∀ ⦃text value rest other tail⦄, item value text rest → item other text tail →
    value = other ∧ rest = tail

/-- Separated items are read in one way if each item is and what stops them is no
separator. -/
theorem unambiguous_separated {item : α → List Char → List Char → Prop} {separator : String}
    {stops : List Char → Prop} (visible : isVisible separator = true) (items : Unambiguous item)
    (excludes : ∀ rest next, stops rest → ¬ Follows separator rest next) :
    Unambiguous (Separated item separator stops) := by
  intro text values rest others tail first second
  induction first generalizing others tail with
  | last isItem isEnd =>
      cases second with
      | last isOther _ =>
          rcases items isItem isOther with ⟨rfl, rfl⟩
          exact ⟨rfl, rfl⟩
      | more isOther follows _ =>
          rcases items isItem isOther with ⟨rfl, rfl⟩
          exact absurd follows (excludes _ _ isEnd)
  | more isItem follows _ ih =>
      cases second with
      | last isOther isEnd =>
          rcases items isItem isOther with ⟨rfl, rfl⟩
          exact absurd follows (excludes _ _ isEnd)
      | more isOther followsToo areOthers =>
          rcases items isItem isOther with ⟨rfl, rfl⟩
          cases follows.unique visible followsToo
          rcases ih areOthers with ⟨rfl, rfl⟩
          exact ⟨rfl, rfl⟩

end AnalyzerGlue.Evt.Reader
