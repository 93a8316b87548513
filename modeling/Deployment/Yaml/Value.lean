import Deployment.Text.Quoted
import Deployment.Yaml.Number

namespace Deployment.Yaml

structure Tag where
  text : String
  deriving DecidableEq

def Tag.ofText (s : String) : Tag :=
  match s.toList with
  | ['!'] => ⟨s⟩
  | '!' :: rest => ⟨String.ofList rest⟩
  | _ => ⟨s⟩

def Tag.display (t : Tag) : String :=
  "!" ++ t.text

/-- A document value. The entries of a mapping keep their order. -/
inductive Value where
  | null
  | bool (b : Bool)
  | number (n : Number)
  | string (s : String)
  | sequence (items : List Value)
  | mapping (entries : List (Value × Value))
  | tagged (tag : Tag) (value : Value)

abbrev Entries := List (Value × Value)

instance : Inhabited Value := ⟨.null⟩

namespace Value

mutual
/-- Equality of values; mappings are equal when they hold equal entries in any order. -/
def same : Value → Value → Bool
  | .null, .null => true
  | .bool a, .bool b => a == b
  | .number a, .number b => a.same b
  | .string a, .string b => a == b
  | .sequence xs, .sequence ys => sameItems xs ys
  | .mapping es, .mapping fs => es.length == fs.length && sameEntries es fs
  | .tagged t v, .tagged u w => t == u && v.same w
  | _, _ => false

def sameItems : List Value → List Value → Bool
  | [], [] => true
  | x :: xs, y :: ys => x.same y && sameItems xs ys
  | _, _ => false

def sameEntries : Entries → Entries → Bool
  | [], _ => true
  | (k, v) :: rest, others =>
    others.any (fun e => k.same e.1 && v.same e.2) && sameEntries rest others
end

def untagged : Value → Value
  | .tagged _ v => v.untagged
  | v => v

def asString? (v : Value) : Option String :=
  match v.untagged with
  | .string s => some s
  | _ => none

def isString (s : String) : Value → Bool
  | .string t => t == s
  | _ => false

def find? (es : Entries) (key : String) : Option Value :=
  (es.find? fun e => e.1.isString key).map (·.2)

/-- The value that a mapping holds under a string key, tags on the mapping aside. -/
def get? (v : Value) (key : String) : Option Value :=
  match v.untagged with
  | .mapping es => find? es key
  | _ => none

mutual
def describe : Value → String
  | .null => "Null"
  | .bool b => "Bool(" ++ toString b ++ ")"
  | .number n => "Number(" ++ n.text ++ ")"
  | .string s => "String(" ++ Text.quoted s ++ ")"
  | .sequence items => "Sequence [" ++ describeItems items ++ "]"
  | .mapping es => "Mapping \x7b" ++ describeEntries es ++ "\x7d"
  | .tagged t v => "TaggedValue \x7b tag: " ++ t.display ++ ", value: " ++ v.describe ++ " \x7d"

def describeItems : List Value → String
  | [] => ""
  | [v] => v.describe
  | v :: rest => v.describe ++ ", " ++ describeItems rest

def describeKey : Value → String
  | .bool b => toString b
  | .number n => n.text
  | .string s => Text.quoted s
  | k => k.describe

def describeEntries : Entries → String
  | [] => ""
  | [(k, v)] => describeKey k ++ ": " ++ v.describe
  | (k, v) :: rest => describeKey k ++ ": " ++ v.describe ++ ", " ++ describeEntries rest
end

end Value

end Deployment.Yaml
