import Deployment.Yaml.Problem
import Deployment.Yaml.Value

namespace Deployment.Yaml

/-- A step from a collection to one of its parts. Only scalar keys have a text. -/
inductive Step where
  | key (text : String)
  | item (index : Nat)
  | other

/-- The way from the root to a part of a document, innermost step first. -/
abbrev Path := List Step

def Path.text : Path → String
  | [] => "."
  | .key k :: [] => k
  | .key k :: outer => Path.text outer ++ "." ++ k
  | .item i :: outer => Path.text outer ++ "[" ++ Decimal.ofNat i ++ "]"
  | .other :: [] => "?"
  | .other :: outer => Path.text outer ++ "." ++ "?"

inductive CoreTag where
  | bool
  | int
  | float
  | null
  deriving DecidableEq

def CoreTag.expected : CoreTag → String
  | .bool => "a boolean"
  | .int => "an integer"
  | .float => "a float"
  | .null => "null"

inductive DecodeError where
  | malformed (fault : Fault)
  | unknownAnchor (position : Position)
  | tooDeep (position : Position)
  | tooManyAliases
  | severalDocuments
  | repeatedKey (path : Path) (key : Value) (position : Position)
  | wideNumber (path : Path) (value : Int) (position : Position)
  | unfitTag (path : Path) (text : String) (tag : CoreTag) (position : Position)

namespace DecodeError

def describeRepeated : Value → String
  | .null => "with null key"
  | .bool b => "with key `" ++ toString b ++ "`"
  | .number n => "with key " ++ n.text
  | .string s => "with key " ++ Text.quoted s
  | _ => "in YAML map"

def located (path : Path) (statement : String) : String :=
  if path.text == "." then statement else path.text ++ ": " ++ statement

def summary : DecodeError → String
  | .malformed fault => fault.problem.message
  | .unknownAnchor _ => "unknown anchor"
  | .tooDeep _ => "recursion limit exceeded"
  | .tooManyAliases => "repetition limit exceeded"
  | .severalDocuments =>
    "deserializing from YAML containing more than one document is not supported"
  | .repeatedKey path key _ => located path ("duplicate entry " ++ describeRepeated key)
  | .wideNumber path i _ =>
    let width := if i < 0 then "i128" else "u128"
    located path ("invalid type: integer `" ++ Decimal.ofInt i ++ "` as " ++ width ++
      ", expected any YAML value")
  | .unfitTag path text tag _ =>
    located path ("invalid value: string " ++ Text.quoted text ++ ", expected " ++ tag.expected)

def position? : DecodeError → Option Position
  | .malformed fault => some fault.position
  | .unknownAnchor position => some position
  | .tooDeep position => some position
  | .tooManyAliases => none
  | .severalDocuments => none
  | .repeatedKey _ _ position => some position
  | .wideNumber _ _ position => some position
  | .unfitTag _ _ _ position => some position

def message (e : DecodeError) : String :=
  match e.position? with
  | none => e.summary
  | some p => if p.isStart then e.summary else e.summary ++ " at " ++ p.text

end DecodeError

end Deployment.Yaml
