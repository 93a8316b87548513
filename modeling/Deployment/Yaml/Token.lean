import Deployment.Yaml.Problem

namespace Deployment.Yaml

inductive Token.Kind where
  | streamEnd
  | version (major minor : Nat)
  | tagHandle (handle address : List Char)
  | documentStart
  | documentEnd
  | sequenceStart
  | mappingStart
  | blockEnd
  | flowSequenceStart
  | flowSequenceEnd
  | flowMappingStart
  | flowMappingEnd
  | entry
  | separator
  | key
  | value
  | alias (name : List Char)
  | anchor (name : List Char)
  | tag (handle suffix : List Char)
  | scalar (text : List Char) (plain : Bool)
  deriving DecidableEq

structure Token where
  kind : Token.Kind
  position : Position

end Deployment.Yaml
