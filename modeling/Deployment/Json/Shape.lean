import Deployment.Json.Printer
import Deployment.Json.Reader
import Deployment.Manifest.Label
import Deployment.Manifest.WatchTime

namespace Deployment.Json

/-- Why a text does not spell what is expected. Of lists and maps only the kind is known. -/
inductive ShapeError where
  | malformed
  | kind (found : Property) (expected : String)
  | negative (i : Int64) (expected : String)
  | missingField (name : String)
  | repeatedField (name : String)
  | tooShort (length : Nat) (expected : String)

def unexpected : Property → String
  | .null => "null"
  | .bool b => "boolean `" ++ toString b ++ "`"
  | .int i => "integer `" ++ Decimal.ofInt i.toInt ++ "`"
  | .uint n => "integer `" ++ Decimal.ofNat n.toNat ++ "`"
  | .float f => "floating point `" ++ float f ++ "`"
  | .string s => "string " ++ Text.quoted s
  | .list _ => "sequence"
  | .map _ => "map"

def ShapeError.message? : ShapeError → Option String
  | .malformed => none
  | .kind found expected => some ("invalid type: " ++ unexpected found ++ ", expected " ++ expected)
  | .negative i expected =>
    some ("invalid value: integer `" ++ Decimal.ofInt i.toInt ++ "`, expected " ++ expected)
  | .missingField name => some ("missing field `" ++ name ++ "`")
  | .repeatedField name => some ("duplicate field `" ++ name ++ "`")
  | .tooShort length expected =>
    some ("invalid length " ++ Decimal.ofNat length ++ ", expected " ++ expected)

def wellFormed {α : Type} : Option α → Except ShapeError α
  | some x => .ok x
  | none => .error .malformed

/-- The value that begins a text; lists and maps are not entered. -/
def readHead (cs : List Char) : Except ShapeError (Property × List Char) :=
  match skipBlanks cs with
  | '[' :: rest => .ok (.list [], rest)
  | '\x7b' :: rest => .ok (.map [], rest)
  | cs => wellFormed (readScalar cs)

def readNatural (cs : List Char) : Except ShapeError (UInt64 × List Char) := do
  let (head, rest) ← readHead cs
  match head with
  | .int i =>
    if i < 0 then .error (.negative i "u64") else return (UInt64.ofNat i.toInt.toNat, rest)
  | .uint n => return (n, rest)
  | p => .error (.kind p "u64")

def complete {α : Type} (x : α) (rest : List Char) : Except ShapeError α :=
  if atEnd rest then .ok x else .error .malformed

namespace WatchTimeText

structure Bounds where
  start : Option UInt64 := none
  stop : Option UInt64 := none

def entry (b : Bounds) (cs : List Char) : Except ShapeError (Bounds × List Char) := do
  match skipBlanks cs with
  | '"' :: rest =>
    let (key, rest) ← wellFormed (readText .text rest)
    let key := String.ofList key
    if key == "start" && b.start.isSome then .error (.repeatedField "start")
    else if key == "end" && b.stop.isSome then .error (.repeatedField "end")
    else
      match skipBlanks rest with
      | ':' :: rest =>
        if key == "start" then
          let (n, rest) ← readNatural rest
          return ({ b with start := some n }, rest)
        else if key == "end" then
          let (n, rest) ← readNatural rest
          return ({ b with stop := some n }, rest)
        else
          let rest ← wellFormed (skipTree rest.length rest)
          return (b, rest)
      | _ => .error .malformed
  | _ => .error .malformed

def entries : Nat → Bounds → List Char → Except ShapeError (Bounds × List Char)
  | 0, _, _ => .error .malformed
  | fuel + 1, b, cs => do
    let (b, rest) ← entry b cs
    match skipBlanks rest with
    | ',' :: rest => entries fuel b rest
    | '\x7d' :: rest => return (b, rest)
    | _ => .error .malformed

def ofMap (cs : List Char) : Except ShapeError (WatchTime × List Char) := do
  let (b, rest) ← match skipBlanks cs with
    | '\x7d' :: rest => pure (({} : Bounds), rest)
    | _ => entries (cs.length + 1) {} cs
  match b.start, b.stop with
  | some start, some stop => return (⟨start, stop⟩, rest)
  | none, _ => .error (.missingField "start")
  | _, none => .error (.missingField "end")

def ofList (cs : List Char) : Except ShapeError (WatchTime × List Char) := do
  let short (length : Nat) : ShapeError :=
    .tooShort length "struct WatchTime with 2 elements"
  match skipBlanks cs with
  | ']' :: _ => .error (short 0)
  | cs =>
    let (start, rest) ← readNatural cs
    match skipBlanks rest with
    | ']' :: _ => .error (short 1)
    | ',' :: rest =>
      let (stop, rest) ← readNatural rest
      match skipBlanks rest with
      | ']' :: rest => return (⟨start, stop⟩, rest)
      | _ => .error .malformed
    | _ => .error .malformed

end WatchTimeText

end Deployment.Json

namespace Deployment

open Json

def WatchTime.ofJson (text : String) : Except ShapeError WatchTime := do
  let (head, rest) ← readHead text.toList
  match head with
  | .list _ =>
    let (w, rest) ← WatchTimeText.ofList rest
    complete w rest
  | .map _ =>
    let (w, rest) ← WatchTimeText.ofMap rest
    complete w rest
  | p => .error (.kind p "struct WatchTime")

def Label.ofJson {kind : LabelKind} (text : String) : Except ShapeError (Label kind) := do
  let (head, rest) ← readHead text.toList
  match head with
  | .string s => complete ⟨s⟩ rest
  | p => .error (.kind p "a string")

end Deployment
