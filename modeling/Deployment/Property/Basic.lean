import Deployment.Yaml.Value

namespace Deployment

/-- A property. The unsigned integers are for what a signed word does not hold. -/
inductive Property where
  | null
  | bool (b : Bool)
  | int (i : Int64)
  | uint (n : UInt64)
  | float (f : Float)
  | string (s : String)
  | list (items : List Property)
  | map (entries : List (String × Property))

abbrev PropertyMap := List (String × Property)

instance : Inhabited Property := ⟨.null⟩

namespace PropertyMap

def get? (m : PropertyMap) (key : String) : Option Property :=
  (m.find? (·.1 == key)).map (·.2)

def contains (m : PropertyMap) (key : String) : Bool :=
  m.any (·.1 == key)

/-- The map with the property under the key, in the place of an earlier one or else at the end. -/
def insert (m : PropertyMap) (key : String) (value : Property) : PropertyMap :=
  match m with
  | [] => [(key, value)]
  | e :: rest => if e.1 == key then (key, value) :: rest else e :: insert rest key value

def keys (m : PropertyMap) : List String :=
  m.map (·.1)

end PropertyMap

namespace Property

mutual
/-- Equality of trees, in which the order of a map's entries does not count and what is not a
number differs from itself. -/
def same : Property → Property → Bool
  | .null, .null => true
  | .bool a, .bool b => a == b
  | .int a, .int b => a == b
  | .uint a, .uint b => a == b
  | .float a, .float b => a == b
  | .string a, .string b => a == b
  | .list xs, .list ys => sameItems xs ys
  | .map es, .map fs => es.length == fs.length && sameEntries es fs
  | _, _ => false

def sameItems : List Property → List Property → Bool
  | [], [] => true
  | x :: xs, y :: ys => x.same y && sameItems xs ys
  | _, _ => false

def sameEntries : PropertyMap → PropertyMap → Bool
  | [], _ => true
  | (k, v) :: rest, others =>
    others.any (fun e => k == e.1 && v.same e.2) && sameEntries rest others
end

def isNull : Property → Bool
  | .null => true
  | _ => false

def asString? : Property → Option String
  | .string s => some s
  | _ => none

def asBool? : Property → Option Bool
  | .bool b => some b
  | _ => none

def asInt64? : Property → Option Int64
  | .int i => some i
  | .uint n => if n.toNat < 0x8000000000000000 then some (Int64.ofNat n.toNat) else none
  | _ => none

def asFloat? : Property → Option Float
  | .float f => some f
  | _ => none

def asList? : Property → Option (List Property)
  | .list items => some items
  | _ => none

def asMap? : Property → Option PropertyMap
  | .map m => some m
  | _ => none

end Property

end Deployment
