import Deployment.Property.Basic
import Deployment.Property.Location

namespace Deployment

inductive PropertyError where
  | unsupportedKey (location : Location) (kind : String)
  | unsupportedValue (location : Location) (kind : String)
  | collision (location : Location) (key : String)
  | notMapping (kind : String)
  deriving DecidableEq

def PropertyError.message : PropertyError → String
  | .unsupportedKey l kind =>
    "unsupported key type '" ++ kind ++ "' in mapping at '" ++ l.text ++ "'"
  | .unsupportedValue l kind => "unsupported value type '" ++ kind ++ "' at '" ++ l.text ++ "'"
  | .collision l key =>
    "key '" ++ key ++ "' at '" ++ l.text ++ "' collides with an earlier key after normalization"
  | .notMapping kind => "expected a mapping, found '" ++ kind ++ "'"

def Yaml.Value.kindName : Value → String
  | .null => "null"
  | .bool _ => "bool"
  | .number (.float _) => "float"
  | .number (.whole _) => "integer"
  | .string _ => "string"
  | .sequence _ => "sequence"
  | .mapping _ => "mapping"
  | .tagged tag _ => "tagged " ++ tag.display

namespace Property

open Yaml (Value Entries)

def keyText : Value → Option String
  | .string s => some s
  | .number (.whole n) => some (Decimal.ofInt n.val)
  | _ => none

def ofNumber : Yaml.Number → Property
  | .whole n =>
    if n.val < 0x8000000000000000 then .int (Int64.ofInt n.val)
    else .uint (UInt64.ofNat n.val.toNat)
  | .float f => .float f

mutual
def ofValue (location : Location) : Value → Except PropertyError Property
  | .null => .ok .null
  | .bool b => .ok (.bool b)
  | .number n => .ok (ofNumber n)
  | .string s => .ok (.string s)
  | .sequence items => (ofItems location 0 items).map .list
  | .mapping es => (ofEntries location [] es).map .map
  | .tagged tag v => .error (.unsupportedValue location (Value.tagged tag v).kindName)

def ofItems (location : Location) (i : Nat) : List Value → Except PropertyError (List Property)
  | [] => .ok []
  | v :: rest => do
    let p ← ofValue (location ++ [.index i]) v
    let ps ← ofItems location (i + 1) rest
    return p :: ps

def ofEntries (location : Location) (taken : List String) :
    Entries → Except PropertyError PropertyMap
  | [] => .ok []
  | (k, v) :: rest =>
    match keyText k with
    | none => .error (.unsupportedKey location k.kindName)
    | some name =>
      if taken.contains name then .error (.collision location name)
      else do
        let p ← ofValue (location ++ [.key name]) v
        let ps ← ofEntries location (taken ++ [name]) rest
        return (name, p) :: ps
end

/-- The tree of a value. A null on its own stands for no properties. -/
def build : Value → Except PropertyError Property
  | .null => .ok (.map [])
  | v => ofValue [] v

mutual
def toYaml : Property → Value
  | .null => .null
  | .bool b => .bool b
  | .int i => .number (.whole (.ofInt64 i))
  | .uint n => .number (.whole (.ofUInt64 n))
  | .float f => .number (.float f)
  | .string s => .string s
  | .list items => .sequence (itemsToYaml items)
  | .map es => .mapping (entriesToYaml es)

def itemsToYaml : List Property → List Value
  | [] => []
  | p :: rest => p.toYaml :: itemsToYaml rest

def entriesToYaml : PropertyMap → Entries
  | [] => []
  | (k, p) :: rest => (.string k, p.toYaml) :: entriesToYaml rest
end

end Property

/-- The properties of a block, which must be a mapping. A null block holds none. -/
def PropertyMap.build : Yaml.Value → Except PropertyError PropertyMap
  | .null => .ok []
  | .mapping es => Property.ofEntries [] [] es
  | v => .error (.notMapping v.kindName)

end Deployment
