import AnalyzerGlue.Compiler
import AnalyzerGlue.Text.Numeral

/-!
# Command line arguments

The arguments of a command line are options and files in any order.  An option
that takes a value has it behind an equals sign or as the next argument, which
then must not look like an option itself.  No option may be given twice, and
after a lone `--` everything is a file.

Arguments are read from left to right, and the first one that is wrong, or
asks for help or the version, ends the reading.
-/

namespace AnalyzerGlue.Command

/-- The options that take a value. -/
inductive Setting where
  | hostVersion
  | grammarVersion
  | versionSymbol
  | types
  | outDir
deriving DecidableEq, Repr

/-- The options that take no value. -/
inductive Switch where
  | debug
  | verbose
  | help
  | version
deriving DecidableEq, Repr

/-- An option: one with a value or one without. -/
inductive Choice where
  | setting (setting : Setting)
  | switch (switch : Switch)
deriving DecidableEq, Repr

/-- The option with a long name. -/
def Choice.ofName? : String → Option Choice
  | "host-version" => some (.setting .hostVersion)
  | "grammar-version" => some (.setting .grammarVersion)
  | "version-symbol" => some (.setting .versionSymbol)
  | "types" => some (.setting .types)
  | "out-dir" => some (.setting .outDir)
  | "debug" => some (.switch .debug)
  | "verbose" => some (.switch .verbose)
  | "help" => some (.switch .help)
  | "version" => some (.switch .version)
  | _ => none

/-- The option with a one-letter name. -/
def Switch.ofLetter? : Char → Option Switch
  | 'v' => some .verbose
  | 'h' => some .help
  | 'V' => some .version
  | _ => none

/-- The faults of a command line. -/
inductive Misuse where
  | unknown (argument : String)
  | repeated (argument : String)
  | missingValue (argument : String)
  | unwantedValue (argument : String)
  | invalidValue (value : String)
  | noFiles
deriving DecidableEq, Repr

/-- The reasons why a command line does not lead to a compilation. -/
inductive Stop where
  | help
  | version
  | misuse (fault : Misuse)
deriving DecidableEq, Repr

/-- A compilation as a command line asks for it. -/
structure Request where
  options : Options
  /-- The index of the types that the host knows. -/
  types : Option Path
  /-- Where generated modules are written to; otherwise they are printed. -/
  outDir : Option Path
  verbose : Bool
  files : List Path
deriving DecidableEq, Repr

/-- What the arguments read so far have settled. -/
structure Draft where
  hostVersion : Option Nat
  grammarVersion : Option Nat
  versionSymbol : Option String
  types : Option Path
  outDir : Option Path
  debug : Bool
  verbose : Bool
  /-- The files, the last one first. -/
  files : List Path
deriving DecidableEq, Repr

/-! ## Single arguments -/

/-- The largest version number. -/
def maxVersion : Nat := 0xFFFFFFFF

/-- Reads a version number, which may have a sign. -/
def readVersion? (text : String) : Option Nat := do
  let value ← Text.readSigned? text.toList
  if 0 ≤ value ∧ value ≤ maxVersion then some value.toNat else none

/-- A path that is not empty. -/
def readPath? (text : String) : Option Path :=
  if text.isEmpty then none else some ⟨text⟩

/-- The forms of an argument. -/
inductive Argument where
  /-- The sign that only files follow. -/
  | separator
  | long (name : String) (value : Option String)
  | short (letters : List Char)
  | plain (text : String)
deriving DecidableEq, Repr

/-- Divides a text at its first equals sign. -/
def splitValue (text : List Char) : String × Option String :=
  (String.ofList (text.takeWhile (· != '=')),
    match text.dropWhile (· != '=') with
    | [] => none
    | _ :: value => some (String.ofList value))

/-- The form of an argument.  A lone hyphen is plain. -/
def Argument.ofText (text : String) : Argument :=
  match text.toList with
  | ['-', '-'] => .separator
  | '-' :: '-' :: body =>
      let (name, value) := splitValue body
      .long name value
  | '-' :: letter :: letters => .short (letter :: letters)
  | _ => .plain text

namespace Draft

/-- Nothing has been settled. -/
def blank : Draft :=
  ⟨none, none, none, none, none, false, false, []⟩

/-- Fills a slot that is empty so far with a value that could be read. -/
def fill {α : Type} (slot : Option α) (argument text : String) (value : Option α) :
    Except Stop (Option α) :=
  match slot, value with
  | some _, _ => .error (.misuse (.repeated argument))
  | none, none => .error (.misuse (.invalidValue text))
  | none, some value => .ok (some value)

/-- Settles an option that takes a value. -/
def set (draft : Draft) (argument : String) (setting : Setting) (text : String) :
    Except Stop Draft :=
  match setting with
  | .hostVersion => do
      return { draft with
        hostVersion := ← fill draft.hostVersion argument text (readVersion? text) }
  | .grammarVersion => do
      return { draft with
        grammarVersion := ← fill draft.grammarVersion argument text (readVersion? text) }
  | .versionSymbol => do
      return { draft with
        versionSymbol := ← fill draft.versionSymbol argument text (some text) }
  | .types => do
      return { draft with types := ← fill draft.types argument text (readPath? text) }
  | .outDir => do
      return { draft with outDir := ← fill draft.outDir argument text (readPath? text) }

/-- Turns a switch on. -/
def turnOn (draft : Draft) (argument : String) : Switch → Except Stop Draft
  | .debug =>
      if draft.debug then .error (.misuse (.repeated argument))
      else .ok { draft with debug := true }
  | .verbose =>
      if draft.verbose then .error (.misuse (.repeated argument))
      else .ok { draft with verbose := true }
  | .help => .error .help
  | .version => .error .version

/-- Turns on the switches with the given letters. -/
def turnOnAll (draft : Draft) (argument : String) : List Char → Except Stop Draft
  | [] => .ok draft
  | letter :: letters =>
      match Switch.ofLetter? letter with
      | none => .error (.misuse (.unknown argument))
      | some switch => do (← draft.turnOn argument switch).turnOnAll argument letters

/-- Adds a file. -/
def addFile (draft : Draft) (text : String) : Except Stop Draft :=
  match readPath? text with
  | none => .error (.misuse (.invalidValue text))
  | some path => .ok { draft with files := path :: draft.files }

/-! ## Whole command lines -/

/-- Reads arguments from left to right. -/
def read (draft : Draft) : List String → Except Stop Draft
  | [] => .ok draft
  | argument :: rest =>
      match Argument.ofText argument with
      | .separator => rest.foldlM addFile draft
      | .plain text => do (← draft.addFile text).read rest
      | .short letters => do (← draft.turnOnAll argument letters).read rest
      | .long name value =>
          match Choice.ofName? name, value with
          | none, _ => .error (.misuse (.unknown argument))
          | some (.switch switch), none => do (← draft.turnOn argument switch).read rest
          | some (.switch _), some _ => .error (.misuse (.unwantedValue argument))
          | some (.setting setting), some text => do
              (← draft.set argument setting text).read rest
          | some (.setting setting), none =>
              match rest with
              | [] => .error (.misuse (.missingValue argument))
              | next :: others =>
                  match Argument.ofText next with
                  | .plain text => do (← draft.set argument setting text).read others
                  | _ => .error (.misuse (.missingValue argument))

/-- The compilation that the arguments ask for.  What they do not settle is as
usual. -/
def request (draft : Draft) : Except Stop Request :=
  if draft.files.isEmpty then .error (.misuse .noFiles)
  else
    let usual := Options.usual
    .ok {
      options :=
        ⟨draft.hostVersion.getD usual.hostVersion,
          draft.grammarVersion.getD usual.grammarVersion,
          draft.debug, draft.versionSymbol.getD usual.versionSymbol⟩
      types := draft.types
      outDir := draft.outDir
      verbose := draft.verbose
      files := draft.files.reverse }

end Draft

/-- Reads a command line. -/
def Request.ofArguments (arguments : List String) : Except Stop Request := do
  (← Draft.blank.read arguments).request

end AnalyzerGlue.Command
