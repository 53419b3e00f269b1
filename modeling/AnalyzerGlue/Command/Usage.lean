import AnalyzerGlue.Command.Arguments

/-!
# Help for the command line

The texts that the command shows when it is asked for help or its version, and
when its arguments are wrong.
-/

namespace AnalyzerGlue.Command

/-- The name of the command and its version. -/
def versionLine : String :=
  "evtglue 0.1.0"

/-- How the command is called. -/
def usageLine : String :=
  "Usage: evtglue [OPTIONS] <FILES>..."

/-- The options with their descriptions. -/
def optionHelp : List (String × String) :=
  let usual := Options.usual
  [("      --host-version <HOST_VERSION>",
      "Host version visible to @if conditions as HOST_VERSION [default: " ++
        toString usual.hostVersion ++ "]"),
    ("      --grammar-version <GRAMMAR_VERSION>",
      "Grammar compiler version the output targets [default: " ++
        toString usual.grammarVersion ++ "]"),
    ("      --debug", "Make generated hooks log every event they raise"),
    ("      --version-symbol <VERSION_SYMBOL>",
      "External name of the plugin version function [default: " ++
        usual.versionSymbol ++ "]"),
    ("      --types <FILE>", "JSON index of grammar modules and types"),
    ("      --out-dir <DIR>",
      "Write one file per generated module instead of printing them"),
    ("  -v, --verbose", "Log progress (same as EVTGLUE_LOG=debug)"),
    ("  -h, --help", "Print help"),
    ("  -V, --version", "Print version")]

/-- The full help. -/
def helpText : String :=
  "Glue compiler turning .evt analyzer/event declarations into host registration " ++
    "and hook modules\n\n" ++ usageLine ++
    "\n\nArguments:\n  <FILES>...  .evt files to compile\n\nOptions:\n" ++
    String.join (optionHelp.map fun entry => entry.1 ++ "\n          " ++ entry.2 ++ "\n")

/-- The message of a fault. -/
def Misuse.message : Misuse → String
  | .unknown argument => "unexpected argument '" ++ argument ++ "' found"
  | .repeated argument => "the argument '" ++ argument ++ "' cannot be used multiple times"
  | .missingValue argument => "a value is required for '" ++ argument ++ "' but none was supplied"
  | .unwantedValue argument => "unexpected value in '" ++ argument ++ "' found"
  | .invalidValue value => "invalid value '" ++ value ++ "'"
  | .noFiles => "the following required arguments were not provided:\n  <FILES>..."

/-- What is shown for a fault. -/
def Misuse.text (fault : Misuse) : String :=
  "error: " ++ fault.message ++ "\n\n" ++ usageLine ++
    "\n\nFor more information, try '--help'.\n"

/-- The exit code for wrong arguments. -/
def misuseCode : Nat := 2

end AnalyzerGlue.Command
