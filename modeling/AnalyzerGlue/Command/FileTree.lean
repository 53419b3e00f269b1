import AnalyzerGlue.Command.Run

/-!
# File trees

A file tree is a directory with all that is below it, as a value.  Paths are
followed step by step from its top: `.` and empty pieces stay, `..` goes up,
and only directories can be stepped into.  What lies outside the tree is
empty, and stays so.

With a file tree in place of the files of a machine, a run of the command is a
function of its arguments and the tree.
-/

namespace AnalyzerGlue.Command

/-- The names that lead from the top of a tree to one of its nodes. -/
abbrev Place := List String

/-- The nodes of a file tree. -/
inductive Node where
  | directory
  /-- A file with its text; other contents are not kept. -/
  | file (text : Option String)
deriving DecidableEq, Repr

/-- A tree of directories and files. -/
structure FileTree where
  /-- All nodes except the top. -/
  nodes : List (Place × Node)
deriving DecidableEq, Repr

namespace FileTree

/-- A tree with nothing in it. -/
def empty : FileTree := ⟨[]⟩

/-- The node at a place.  The top is a directory. -/
def node? (tree : FileTree) (place : Place) : Option Node :=
  if place.isEmpty then some .directory
  else (findKey? Prod.fst place tree.nodes).map Prod.snd

/-- Puts a node at a place. -/
def put (tree : FileTree) (place : Place) (node : Node) : FileTree :=
  ⟨upsert Prod.fst (place, node) tree.nodes⟩

/-- Makes the directories on the way to a place, and the place itself. -/
def makeDirectories (tree : FileTree) (place : Place) : FileTree :=
  ((List.range place.length).map fun n => place.take (n + 1)).foldl
    (fun tree place => tree.put place .directory) tree

/-- The place that a path inside the tree names. -/
def placeOf (path : Path) : Place :=
  ((Path.pieces path.text.toList).filter fun piece => !Path.isTrivial piece).map
    String.ofList

/-- Makes a file and the directory it is in. -/
def addFile (tree : FileTree) (path : Path) (text : Option String) : FileTree :=
  let place := placeOf path
  (tree.makeDirectories place.dropLast).put place (.file text)

/-! ## Following paths -/

/-- The largest size of a name in bytes. -/
def maxName : Nat := 255

/-- The largest size of a path in bytes. -/
def maxPath : Nat := 4095

/-- Where a path has led to: a directory of the tree or one outside of it. -/
abbrev Spot := Option Place

/-- Steps from a directory into what a name stands for there. -/
def enter (tree : FileTree) (spot : Spot) (piece : List Char) : Except FileFault Spot :=
  if Path.isTrivial piece then .ok spot
  else if piece = ['.', '.'] then
    .ok (spot.bind fun place => if place.isEmpty then none else some place.dropLast)
  else if maxName < (String.ofList piece).utf8ByteSize then .error .nameTooLong
  else
    match spot with
    | none => .error .missing
    | some place =>
        let next := place ++ [String.ofList piece]
        match tree.node? next with
        | none => .error .missing
        | some (.file _) => .error .notDirectory
        | some .directory => .ok (some next)

/-- The pieces of a path and where to start from. -/
def start (path : Path) : Except FileFault (Spot × List (List Char)) :=
  if path.text.isEmpty then .error .missing
  else if path.hasNul then .error .nulInName
  else if maxPath < path.text.utf8ByteSize then .error .nameTooLong
  else
    match path.text.toList with
    | '/' :: rest => .ok (none, Path.pieces rest)
    | text => .ok (some [], Path.pieces text)

/-- Follows a path up to its last piece. -/
def follow (tree : FileTree) (path : Path) : Except FileFault (Spot × List Char) := do
  let (spot, pieces) ← start path
  let spot ← pieces.dropLast.foldlM tree.enter spot
  return (spot, pieces.getLastD [])

/-- The place of a name in a directory of the tree.  There is none for a piece
that is no name, and outside of the tree. -/
def child (spot : Spot) (piece : List Char) : Option Place :=
  if Path.isTrivial piece || piece == ['.', '.'] then none
  else spot.map fun place => place ++ [String.ofList piece]

/-- The text of a file. -/
def read (tree : FileTree) (path : Path) : Except FileFault String := do
  let (spot, piece) ← tree.follow path
  match (child spot piece).bind tree.node? with
  | some (.file (some text)) => .ok text
  | some (.file none) => .error .notText
  | some .directory => .error .isDirectory
  | none => do
      let _ ← tree.enter spot piece
      .error .isDirectory

/-- Writes a file, which need not exist before.  One outside of the tree is not
kept. -/
def write (tree : FileTree) (path : Path) (text : String) : Except FileFault FileTree := do
  let (spot, piece) ← tree.follow path
  if maxName < (String.ofList piece).utf8ByteSize then .error .nameTooLong
  else if Path.isTrivial piece || piece == ['.', '.'] then .error .isDirectory
  else
    match spot with
    | none => .ok tree
    | some place =>
        let place := place ++ [String.ofList piece]
        match tree.node? place with
        | some .directory => .error .isDirectory
        | _ => .ok (tree.put place (.file (some text)))

/-! ## Running the command -/

/-- The files of a tree that is passed along. -/
def files : Files (StateM FileTree) where
  read path tree := (tree.read path, tree)
  write path text tree :=
    match tree.write path text with
    | .ok changed => (.ok (), changed)
    | .error fault => (.error fault, tree)

/-- Runs a request on the files of a tree. -/
def run (tree : FileTree) (request : Request) : Outcome × FileTree :=
  Command.run files request tree

/-- A place as a path from the top. -/
def pathOf (place : Place) : String :=
  String.intercalate "/" place

/-- The texts of the files that are not the same in an earlier tree, in the
order of their paths. -/
def changes (before after : FileTree) : List (String × String) :=
  let changed := after.nodes.filterMap fun entry =>
    match entry.2 with
    | .file (some text) =>
        if before.node? entry.1 = some entry.2 then none else some (pathOf entry.1, text)
    | _ => none
  changed.mergeSort fun left right => decide (left.1 ≤ right.1)

end FileTree

end AnalyzerGlue.Command
