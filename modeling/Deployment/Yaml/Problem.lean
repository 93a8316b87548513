import Deployment.Decimal.Digits

namespace Deployment.Yaml

structure Position where
  line : Nat
  column : Nat
  deriving DecidableEq, Inhabited

def Position.isStart (p : Position) : Bool :=
  p.line == 0 && p.column == 0

def Position.text (p : Position) : String :=
  "line " ++ Decimal.ofNat (p.line + 1) ++ " column " ++ Decimal.ofNat (p.column + 1)

inductive Problem where
  | illFormedOctets
  | controlCharacter
  | strayCharacter
  | keyWithoutColon
  | misplacedEntry
  | misplacedKey
  | misplacedValue
  | directiveName
  | unknownDirective
  | versionNumber
  | directiveEnd
  | repeatedVersion
  | foreignVersion
  | repeatedTagHandle
  | tagHandle
  | tagAddress
  | tagEscape
  | tagEnd
  | undefinedTagHandle
  | anchorName
  | blockHeader
  | blockTab
  | plainColon
  | plainTab
  | quotedIndicator
  | quotedEnd
  | unknownEscape
  | escapeDigits
  | escapeCode
  | documentStart
  | nodeContent
  | sequenceEntry
  | mappingKey
  | flowSequenceEnd
  | flowMappingEnd
  deriving DecidableEq

def Problem.message : Problem → String
  | .illFormedOctets => "the text is not well-formed UTF-8"
  | .controlCharacter => "control characters are not allowed"
  | .strayCharacter => "found character that cannot start any token"
  | .keyWithoutColon => "could not find expected ':'"
  | .misplacedEntry => "block sequence entries are not allowed in this context"
  | .misplacedKey => "mapping keys are not allowed in this context"
  | .misplacedValue => "mapping values are not allowed in this context"
  | .directiveName => "could not find expected directive name"
  | .unknownDirective => "found unknown directive name"
  | .versionNumber => "did not find expected version number"
  | .directiveEnd => "did not find expected comment or line break"
  | .repeatedVersion => "found duplicate %YAML directive"
  | .foreignVersion => "found incompatible YAML document"
  | .repeatedTagHandle => "found duplicate %TAG directive"
  | .tagHandle => "did not find expected '!'"
  | .tagAddress => "did not find expected tag URI"
  | .tagEscape => "did not find URI escaped octet"
  | .tagEnd => "did not find expected whitespace or line break"
  | .undefinedTagHandle => "found undefined tag handle"
  | .anchorName => "did not find expected alphabetic or numeric character"
  | .blockHeader => "did not find expected comment or line break"
  | .blockTab => "found a tab character where an indentation space is expected"
  | .plainColon => "found unexpected ':'"
  | .plainTab => "found a tab character that violates indentation"
  | .quotedIndicator => "found unexpected document indicator"
  | .quotedEnd => "found unexpected end of stream"
  | .unknownEscape => "found unknown escape character"
  | .escapeDigits => "did not find expected hexadecimal number"
  | .escapeCode => "found invalid Unicode character escape code"
  | .documentStart => "did not find expected <document start>"
  | .nodeContent => "did not find expected node content"
  | .sequenceEntry => "did not find expected '-' indicator"
  | .mappingKey => "did not find expected key"
  | .flowSequenceEnd => "did not find expected ',' or ']'"
  | .flowMappingEnd => "did not find expected ',' or '\x7d'"

structure Fault where
  problem : Problem
  position : Position

end Deployment.Yaml
