import Deployment.Yaml.Document
import Deployment.Yaml.Scalar

/-!
From the nodes of a document to its value: aliases are replaced by what they stand for, scalars are
resolved, and tags of the document's own are kept. Depth is limited, and so is the number of
aliases that are followed; results come with the number of aliases followed so far.
-/

namespace Deployment.Yaml

def depthLimit : Nat := 128

namespace Decoding

/-- The node an alias stands for, which counts as one alias more; other nodes are themselves. -/
def follow (d : Document) (n : Node) (jumps : Nat) : Except DecodeError (Node × Nat) :=
  match n with
  | .alias anchor position =>
    if jumps + 1 > d.size * 100 then .error .tooManyAliases
    else
      match d.target anchor with
      | some target => .ok (target, jumps + 1)
      | none => .error (.unknownAnchor position)
  | _ => .ok (n, jumps)

/-- Whether a node is an alias, whose content is read as if it stood alone. -/
def isAlias : Node → Bool
  | .alias .. => true
  | _ => false

/-- The tag that a document gives on its own account: one that begins with an exclamation mark. -/
def ownTag (h : Node.Heading) : Option Tag :=
  match h.tag with
  | some ('!' :: rest) => some (.ofText (String.ofList ('!' :: rest)))
  | _ => none

def ofScalar (path : Path) (position : Position) : Scalar → Except DecodeError Value
  | .null => .ok .null
  | .bool b => .ok (.bool b)
  | .whole i =>
    match Whole.ofInt? i with
    | some n => .ok (.number (.whole n))
    | none => .error (.wideNumber path i position)
  | .float f => .ok (.number (.float f))
  | .string s => .ok (.string s)

def coreTag? (tag : List Char) : Option CoreTag :=
  let standard (name : String) := tag == ("tag:yaml.org,2002:" ++ name).toList
  if standard "bool" then some .bool
  else if standard "int" then some .int
  else if standard "float" then some .float
  else if standard "null" then some .null
  else none

def readAs (tag : CoreTag) (text : List Char) : Option Scalar :=
  match tag with
  | .bool => (Scalar.readBool text).map .bool
  | .int => (Scalar.readWhole text).map .whole
  | .float => (Scalar.readFloat text).map .float
  | .null => if !text.isEmpty && Scalar.isNull text then some .null else none

/-- A scalar. Inside a tag of the document's own, only its style decides how it is read. -/
def scalar (path : Path) (inTag : Bool) (h : Node.Heading) (text : List Char) (plain : Bool) :
    Except DecodeError Value :=
  let asWritten := ofScalar path h.position
    (if plain then Scalar.resolve text else .string (String.ofList text))
  match h.tag with
  | none => asWritten
  | some tag =>
    if inTag then asWritten
    else
      match coreTag? tag with
      | none => .ok (.string (String.ofList text))
      | some core =>
        match readAs core text with
        | some s => ofScalar path h.position s
        | none => .error (.unfitTag path (String.ofList text) core h.position)

def items (decode : Nat → Node → Nat → Except DecodeError (Value × Nat)) :
    Nat → List Node → Nat → Except DecodeError (List Value × Nat)
  | _, [], jumps => .ok ([], jumps)
  | i, n :: rest, jumps => do
    let (v, jumps) ← decode i n jumps
    let (vs, jumps) ← items decode (i + 1) rest jumps
    return (v :: vs, jumps)

def stepTo : Node → Step
  | .scalar _ text _ => .key (String.ofList text)
  | _ => .other

/-- Entries in order, after those decoded before. A key must differ from all earlier ones. -/
def entries (decodeKey : Node → Nat → Except DecodeError (Value × Nat))
    (decodeValue : Step → Node → Nat → Except DecodeError (Value × Nat))
    (repeated : Value → DecodeError) :
    List (Node × Node) → Entries → Nat → Except DecodeError (Entries × Nat)
  | [], done, jumps => .ok (done, jumps)
  | (k, v) :: rest, done, jumps => do
    let (key, jumps) ← decodeKey k jumps
    match done.find? (·.1.same key) with
    | some (earlier, _) => .error (repeated earlier)
    | none =>
      let (value, jumps) ← decodeValue (stepTo k) v jumps
      entries decodeKey decodeValue repeated rest (done ++ [(key, value)]) jumps

def withTag (inTag : Bool) (h : Node.Heading) (v : Value) : Value :=
  match if inTag then none else ownTag h with
  | some tag => .tagged tag v
  | none => v

/-- How the nodes inside a collection are read, from their path and from whether they belong to
tagged content. -/
abbrev Reader := Path → Bool → Node → Nat → Except DecodeError (Value × Nat)

/-- The value of a node that is no alias. Without a reader for the nodes inside there may be no
collection. Keys of a mapping with a tag of its own are read as part of the tagged content. -/
def content (inside : Option Reader) (path : Path) (inTag : Bool) (n : Node) (jumps : Nat) :
    Except DecodeError (Value × Nat) :=
  match n, inside with
  | .cut e, _ => .error e
  | .alias _ position, _ => .error (.unknownAnchor position)
  | .scalar h text plain, _ => do
    let v ← scalar path (inTag || (ownTag h).isSome) h text plain
    return (withTag inTag h v, jumps)
  | .sequence h ns, some read => do
    let (vs, jumps) ← items (fun i => read (.item i :: path) false) 0 ns jumps
    return (withTag inTag h (.sequence vs), jumps)
  | .mapping h es, some read => do
    let (es, jumps) ← entries (read path (inTag || (ownTag h).isSome))
      (fun step => read (step :: path) false)
      (fun key => .repeatedKey path key h.position) es [] jumps
    return (withTag inTag h (.mapping es), jumps)
  | .sequence h _, none => .error (.tooDeep h.position)
  | .mapping h _, none => .error (.tooDeep h.position)

def enter (d : Document) (inside : Option Reader) : Reader := fun path inTag n jumps => do
  let (target, jumps) ← follow d n jumps
  content inside path (inTag && !isAlias n) target jumps

def node (d : Document) : Nat → Reader
  | 0 => enter d none
  | depth + 1 => enter d (some (node d depth))

end Decoding

/-- The value of a document. An error in what comes before a fault is found first. -/
def Document.value (d : Document) : Except DecodeError Value := do
  let (v, _) ← Decoding.node d depthLimit [] false d.root 0
  match d.fault with
  | some e => .error e
  | none => if d.followed then .error .severalDocuments else .ok v

def Value.ofOctets (octets : List UInt8) : Except DecodeError Value :=
  (Document.ofOctets octets).value

def Value.ofText (text : String) : Except DecodeError Value :=
  Value.ofOctets text.toUTF8.toList

end Deployment.Yaml
