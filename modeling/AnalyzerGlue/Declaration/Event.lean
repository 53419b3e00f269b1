import AnalyzerGlue.GrammarType
import AnalyzerGlue.Hash.Sip
import AnalyzerGlue.Location

/-!
# Declared events

An event declaration says at which hook of a unit an event is raised, under
which condition and with which arguments.  Resolving it finds the unit; what is
found is recorded beside the declaration.

Handlers are named after a hash of the declaration.  Only the declaration
itself takes part in it, so that resolving an event does not change its name.
-/

namespace AnalyzerGlue

/-- An argument of an event; arguments are numbered from one. -/
structure Argument where
  index : Nat
  expression : String
  location : Location
deriving DecidableEq, Repr

/-- What resolving an event has found out about the module of its unit, and the arguments
that it has prepared. -/
structure Binding where
  /-- The items of the unit type. -/
  items : List UnitItem
  moduleId : QualName
  modulePath : Path
  arguments : List Argument

/-- An event declaration. -/
structure Event where
  /-- A unit, or a hook of a unit. -/
  path : QualName
  condition : Option String
  name : QualName
  exprs : List String
  priority : Int
  location : Location
  /-- The unit, once it is known. -/
  unit : Option QualName
  /-- The hook of the unit, once it is known. -/
  hook : Option QualName
  /-- The unit's type and module, once the module is known too. -/
  binding : Option Binding

/-- Whether an argument stands for something that the host provides. -/
def Argument.isReserved (argument : Argument) : Bool :=
  argument.expression.startsWith "$"

namespace Event

/-- The priority of hooks that do not give one; it is low, so that the hooks of
the grammar itself run before. -/
def defaultPriority : Int := -1000

/-- An event without condition and arguments that has not been resolved. -/
def declare (path name : QualName) (location : Location) : Event :=
  ⟨path, none, name, [], defaultPriority, location, none, none, none⟩

/-- Whether the event has been resolved. -/
def isResolved (event : Event) : Bool :=
  event.binding.isSome

/-- The expressions of an event as arguments. -/
def arguments (event : Event) : List Argument :=
  (event.exprs.zipIdx 1).map fun (expression, index) => ⟨index, expression, event.location⟩

/-- The arguments that have been prepared.  Before an event is resolved it has none. -/
def boundArguments (event : Event) : List Argument :=
  match event.binding with
  | none => []
  | some binding => binding.arguments

/-! ## Names of handlers -/

/-- The bytes of a text. -/
def textBytes (text : List Char) : List UInt8 :=
  text.flatMap String.utf8EncodeChar

/-- A text in a message, with the byte that ends it. -/
def hashedText (text : String) : List UInt8 :=
  textBytes text.toList ++ [0xFF]

/-- A number in a message. -/
def hashedNat (number : Nat) : List UInt8 :=
  Hash.bytesOfWord (UInt64.ofNat number)

/-- The bytes of a component of a path.  The root is not part of the message. -/
def componentBytes : Path.Component → List UInt8
  | .root => []
  | .current => textBytes ['.']
  | .parent => textBytes ['.', '.']
  | .normal name => textBytes name

/-- Mixes the lengths of the components, so that it matters where one ends. -/
def mixLengths (lengths : List Nat) : UInt64 :=
  lengths.foldl (fun bits length => Hash.turnRight (bits + UInt64.ofNat length) 2) 0

/-- A path in a message: the bytes of its components and the mix of their
lengths. -/
def hashedPath (path : Path) : List UInt8 :=
  let parts := (path.components.filter (· != .root)).map componentBytes
  parts.flatten ++ Hash.bytesOfWord (mixLengths (parts.map List.length))

/-- The message that is hashed for an event. -/
def message (event : Event) : List UInt8 :=
  let condition :=
    match event.condition with
    | none => hashedNat 0
    | some condition => hashedNat 1 ++ hashedText condition
  hashedText event.path.text ++ condition ++ hashedText event.name.text ++
    hashedNat event.exprs.length ++ event.exprs.flatMap hashedText ++
    Hash.bytesOfWord (Int64.ofInt event.priority).toUInt64 ++
    hashedPath event.location.file ++ hashedNat event.location.line

/-- A hash of the declaration. -/
def stableHash (event : Event) : UInt64 :=
  Hash.sip event.message

/-- The hash in base sixteen. -/
def hashText (event : Event) : String :=
  String.ofList (Nat.toDigits 16 event.stableHash.toNat)

/-- The name of the event with its hash, as one identifier. -/
def mangledName (event : Event) : String :=
  event.name.flattened ++ "_" ++ event.hashText

end Event

end AnalyzerGlue
