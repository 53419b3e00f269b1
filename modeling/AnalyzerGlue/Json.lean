import AnalyzerGlue.Text.Numeral

/-!
# JSON values

The values of JSON texts, as far as type indexes use them: of the numbers, only
the integers that fit into sixty-four bits are told apart.  The members of an
object keep their order, and a name may occur more than once.

A text may also hold what is well written and still stands for nothing, such
as a number beyond the range of doubles.  It is `unreadable`: it may be skipped,
but not used.

Decoders yield nothing for a value of the wrong form.  A member that an object
has to have is `required`; one with a default may be missing, but not `null`;
an optional one may be either.  No member that is asked for may occur twice,
and all others are ignored.  In place of an object there may be an array of the
values of its members, in their order and without their names.
-/

namespace AnalyzerGlue

/-- JSON values. -/
inductive Json where
  | null
  | bool (value : Bool)
  | int (value : Int)
  /-- A number that is no integer of sixty-four bits, or not written as one. -/
  | fraction
  | string (text : String)
  | array (items : List Json)
  | object (members : List (String × Json))
  /-- A number beyond the range of doubles, a string with half of a pair of code
  units, or an object with such a string for a name. -/
  | unreadable
deriving Inhabited

namespace Json

mutual

/-- The number of arrays and objects on the longest way into a value. -/
def nesting : Json → Nat
  | .array items => nestingOfItems items + 1
  | .object members => nestingOfMembers members + 1
  | _ => 0

/-- The greatest nesting of some values. -/
def nestingOfItems : List Json → Nat
  | [] => 0
  | first :: others => max first.nesting (nestingOfItems others)

/-- The greatest nesting of some members. -/
def nestingOfMembers : List (String × Json) → Nat
  | [] => 0
  | (_, first) :: others => max first.nesting (nestingOfMembers others)

end

mutual

/-- Whether nothing in a value is unreadable. -/
def isReadable : Json → Bool
  | .array items => itemsReadable items
  | .object members => membersReadable members
  | .unreadable => false
  | _ => true

/-- Whether nothing in some values is unreadable. -/
def itemsReadable : List Json → Bool
  | [] => true
  | first :: others => first.isReadable && itemsReadable others

/-- Whether nothing in some members is unreadable. -/
def membersReadable : List (String × Json) → Bool
  | [] => true
  | (_, first) :: others => first.isReadable && membersReadable others

end

/-! ## Decoders -/

/-- The text of a string. -/
def string? : Json → Option String
  | .string text => some text
  | _ => none

/-- The value of a truth value. -/
def bool? : Json → Option Bool
  | .bool value => some value
  | _ => none

/-- The value of an integer that fits into a signed number. -/
def signed? : Json → Option Int64
  | .int value =>
      if Text.minSigned ≤ value ∧ value ≤ Text.maxSigned then some (Int64.ofInt value)
      else none
  | _ => none

/-- The value of an integer that is not negative. -/
def natural? : Json → Option Nat
  | .int (.ofNat value) => some value
  | _ => none

/-- The elements of an array, all of the same form. -/
def array? {α : Type} (element : Json → Option α) : Json → Option (List α)
  | .array items => items.mapM element
  | _ => none

/-- The members of an object.  An array gives the values of the members with
the given names; the last ones may be missing. -/
def members? (names : List String) : Json → Option (List (String × Json))
  | .object members => some members
  | .array items => if items.length ≤ names.length then some (names.zip items) else none
  | _ => none

/-- The members of an object with a name. -/
def named (name : String) (members : List (String × Json)) : List Json :=
  (members.filter fun member => member.1 == name).map Prod.snd

/-- A member that has to be there. -/
def required {α : Type} (members : List (String × Json)) (name : String)
    (decode : Json → Option α) : Option α :=
  match named name members with
  | [value] => decode value
  | _ => none

/-- A member that has a default. -/
def defaulted {α : Type} (members : List (String × Json)) (name : String) (default : α)
    (decode : Json → Option α) : Option α :=
  match named name members with
  | [] => some default
  | [value] => decode value
  | _ => none

/-- A member that may be missing or `null`. -/
def optional {α : Type} (members : List (String × Json)) (name : String)
    (decode : Json → Option α) : Option (Option α) :=
  match named name members with
  | [] => some none
  | [.null] => some none
  | [value] => (decode value).map some
  | _ => none

/-- The kind of an object that has a member for it, and its members.  In an
array the kind comes first and decides which members follow. -/
def variant? (tag : String) (kind? : Json → Option String) (names : String → List String) :
    Json → Option (String × List (String × Json))
  | .array (first :: others) => do
      let kind ← kind? first
      let members ← members? (names kind) (.array others)
      return (kind, members)
  | .object members => do
      let kind ← required members tag kind?
      return (kind, members)
  | _ => none

end Json

end AnalyzerGlue
