import AnalyzerGlue.Text.Replace

/-!
# File paths

A path is kept as it is spelled.  What it means is its list of components:
empty pieces and `.` pieces are dropped, except a leading `.`, and a leading
slash is a component of its own.  Two spellings with the same components name
the same file, so that components serve as keys, and paths are ordered by them.

Sets of paths are lists in ascending order.  Of two spellings of one path the
one that came first stays.
-/

namespace AnalyzerGlue

/-- A path as it is spelled. -/
structure Path where
  text : String
deriving DecidableEq, Repr, Inhabited

namespace Path

/-- One step of a path, in ascending order of kinds. -/
inductive Component where
  | root
  | current
  | parent
  | normal (name : List Char)
deriving DecidableEq, Repr

/-- The pieces of a text between its slashes; there is always at least one. -/
def pieces : List Char → List (List Char)
  | [] => [[]]
  | '/' :: rest => [] :: pieces rest
  | c :: rest =>
      match pieces rest with
      | [] => [[c]]
      | piece :: others => (c :: piece) :: others

/-- The texts between slashes that name no step. -/
def isTrivial (piece : List Char) : Bool :=
  piece == [] || piece == ['.']

/-- The step that a non-trivial piece stands for. -/
def Component.ofPiece (piece : List Char) : Component :=
  if piece = ['.', '.'] then .parent else .normal piece

/-- The steps that pieces after the start of a path stand for. -/
def steps (rest : List (List Char)) : List Component :=
  (rest.filter fun piece => !isTrivial piece).map Component.ofPiece

/-- The components of a path. -/
def components (path : Path) : List Component :=
  match path.text.toList with
  | '/' :: rest => .root :: steps (pieces rest)
  | text =>
      match pieces text with
      | ['.'] :: rest => .current :: steps rest
      | all => steps all

/-- Whether a path holds a NUL character, which no file name may. -/
def hasNul (path : Path) : Bool :=
  path.text.toList.contains '\x00'

/-! ## Order -/

/-- Lexicographic order of character lists; a proper initial part is smaller. -/
def compareText : List Char → List Char → Ordering
  | [], [] => .eq
  | [], _ :: _ => .lt
  | _ :: _, [] => .gt
  | c :: left, d :: right => (compare c.toNat d.toNat).then (compareText left right)

/-- The place of a component's kind in the order. -/
def Component.rank : Component → Nat
  | .root => 0
  | .current => 1
  | .parent => 2
  | .normal _ => 3

/-- Components are ordered by kind, and normal ones by their text. -/
def Component.order : Component → Component → Ordering
  | .normal left, .normal right => compareText left right
  | left, right => compare left.rank right.rank

/-- Lexicographic order of component lists. -/
def compareComponents : List Component → List Component → Ordering
  | [], [] => .eq
  | [], _ :: _ => .lt
  | _ :: _, [] => .gt
  | left :: lefts, right :: rights =>
      (left.order right).then (compareComponents lefts rights)

/-- The order of paths. -/
def order (left right : Path) : Ordering :=
  compareComponents left.components right.components

/-- Adds a path to an ascending list.  A path that is there already in some
spelling keeps that spelling. -/
def insert (path : Path) : List Path → List Path
  | [] => [path]
  | first :: rest =>
      match path.order first with
      | .lt => path :: first :: rest
      | .eq => first :: rest
      | .gt => first :: insert path rest

/-- Adds a path to an ascending list.  A path that is there already in some
spelling takes the new spelling. -/
def insertReplacing (path : Path) : List Path → List Path
  | [] => [path]
  | first :: rest =>
      match path.order first with
      | .lt => path :: first :: rest
      | .eq => path :: rest
      | .gt => first :: insertReplacing path rest

/-! ## Directories -/

/-- The pieces without the trivial ones at the end. -/
def dropTrivialEnd (all : List (List Char)) : List (List Char) :=
  (all.reverse.dropWhile isTrivial).reverse

/-- The text before the last of the given pieces that names a step, after the
given start of the path; empty when no piece does. -/
def parentText (start : List Char) (body : List (List Char)) : List Char :=
  match dropTrivialEnd body with
  | [] => []
  | all => start ++ Text.joinWith ['/'] (dropTrivialEnd all.dropLast)

/-- The directory of a path: its text up to the last component, without the
slashes in between.  A path without a component, a lone `/` and a lone `.`
have the empty path as their directory. -/
def parent (path : Path) : Path :=
  ⟨String.ofList <|
    match path.text.toList with
    | '/' :: rest => parentText ['/'] (pieces rest)
    | text =>
        match pieces text with
        | ['.'] :: rest => parentText ['.'] ([] :: rest)
        | all => parentText [] all⟩

/-- A path below a directory.  An absolute path stays as it is, and the slash
between the two is written only where it is needed. -/
def below (directory : Path) (path : Path) : Path :=
  if path.text.startsWith "/" || directory.text.isEmpty then path
  else if directory.text.endsWith "/" then ⟨directory.text ++ path.text⟩
  else ⟨directory.text ++ "/" ++ path.text⟩

end Path

end AnalyzerGlue
