/-!
# Errors in glue sources

The causes for which a glue source is refused, and their messages.
-/

namespace AnalyzerGlue

/-- The ways in which a glue source can be wrong. -/
inductive EvtError where
  | unexpectedEnd
  | emptyStatement
  | expectedToken (token : String)
  | expectedId
  | expectedPath
  | expectedInteger
  | integerOutOfRange (text : String)
  | expectedExpression
  | unbalanced (bracket : Char)
  | unterminatedString
  | invalidPort
  | portOutOfRange
  | portTransportMismatch
  | portRangeInverted
  | portRangeEndpoints
  | unknownTransport (keyword : String)
  | invalidParseClause
  | missingParseClause (analyzer : String)
  | unexpectedToken
  | trailingCharacters
  | unknownStatement
  | packetReplacement
  | unknownDirective (directive : String)
  | invalidCondition (condition : String)
  | unknownVariable (name : String)
  | unmatchedDirective (directive : String)
  | duplicateElse
  | unterminatedDirective
deriving DecidableEq, Repr

/-- The message of an error. -/
def EvtError.message : EvtError → String
  | .unexpectedEnd => "unexpected end of file"
  | .emptyStatement => "empty block"
  | .expectedToken token => "expected token '" ++ token ++ "'"
  | .expectedId => "expected id"
  | .expectedPath => "expected path"
  | .expectedInteger => "expected integer"
  | .integerOutOfRange text => "integer out of range: " ++ text
  | .expectedExpression => "expected grammar expression"
  | .unbalanced bracket => "unbalanced '" ++ String.singleton bracket ++ "' in expression"
  | .unterminatedString => "unterminated string in expression"
  | .invalidPort => "cannot parse port specification"
  | .portOutOfRange => "port outside of valid range"
  | .portTransportMismatch => "start and end of port range must have same protocol"
  | .portRangeInverted => "start of port range cannot be after its end"
  | .portRangeEndpoints => "port range must have exactly two endpoints"
  | .unknownTransport keyword => "unknown transport protocol '" ++ keyword ++ "'"
  | .invalidParseClause => "invalid \"parse with ...\" specification"
  | .missingParseClause analyzer =>
      "protocol analyzer " ++ analyzer ++ " needs a \"parse with ...\" specification"
  | .unexpectedToken => "unexpected token"
  | .trailingCharacters => "unexpected characters at end of line"
  | .unknownStatement =>
      "expected 'import', 'export', '\x7bfile,packet,protocol\x7d analyzer', or 'on'"
  | .packetReplacement =>
      "packet analyzer replacement requires host version 50200 or newer"
  | .unknownDirective directive => "unknown preprocessor directive '" ++ directive ++ "'"
  | .invalidCondition condition => "invalid preprocessor condition '" ++ condition ++ "'"
  | .unknownVariable name => "unknown preprocessor variable '" ++ name ++ "'"
  | .unmatchedDirective directive => "@" ++ directive ++ " without matching @if"
  | .duplicateElse => "@else already seen for this @if"
  | .unterminatedDirective => "unterminated preprocessor directive"

end AnalyzerGlue
