import Deployment.Yaml.Value

/-!
Reading a value as something of a fixed shape: a text, a natural number, a list, or a record with
named fields. Tags do not matter to any of these. A null is an absent option, and otherwise an
empty list or a record without fields.
-/

namespace Deployment.Yaml

inductive Mismatch where
  | kind (found : Value) (expected : String)
  | negative (i : Int) (expected : String)
  | repeatedField (name : String)

/-- Digits only, with a fraction; messages never use an exponent. -/
def messageFloatLayout : Decimal.Layout := ⟨none, false, "NaN", "inf"⟩

def Value.unexpected : Value → String
  | .null => "unit value"
  | .bool b => "boolean `" ++ toString b ++ "`"
  | .number (.whole n) => "integer `" ++ Decimal.ofInt n.val ++ "`"
  | .number (.float f) => "floating point `" ++ messageFloatLayout.text f ++ "`"
  | .string s => "string " ++ Text.quoted s
  | .sequence _ => "sequence"
  | .mapping _ => "map"
  | .tagged .. => "enum"

def Mismatch.message : Mismatch → String
  | .kind found expected => "invalid type: " ++ found.unexpected ++ ", expected " ++ expected
  | .negative i expected =>
    "invalid value: integer `" ++ Decimal.ofInt i ++ "`, expected " ++ expected
  | .repeatedField name => "duplicate field `" ++ name ++ "`"

namespace Shape

def text (v : Value) : Except Mismatch String :=
  match v.untagged with
  | .string s => .ok s
  | w => .error (.kind w "a string")

def natural (v : Value) : Except Mismatch UInt64 :=
  match v.untagged with
  | .number (.whole n) =>
    if n.val < 0 then .error (.negative n.val "u64") else .ok (UInt64.ofNat n.val.toNat)
  | w => .error (.kind w "u64")

def list {α : Type} (item : Value → Except Mismatch α) (v : Value) : Except Mismatch (List α) :=
  match v.untagged with
  | .sequence items => items.mapM item
  | .null => .ok []
  | w => .error (.kind w "a sequence")

def anything (v : Value) : Except Mismatch Value :=
  .ok v

/-- Something that may be absent, which a bare null says. -/
def optional {α : Type} (shape : Value → Except Mismatch α) : Value → Except Mismatch (Option α)
  | .null => .ok none
  | v => (shape v).map some

def withDefault {α : Type} (default : α) (shape : Value → Except Mismatch α) (v : Value) :
    Except Mismatch α :=
  (optional shape v).map (·.getD default)

structure RecordField (ρ : Type) where
  name : String
  read : Value → ρ → Except Mismatch ρ

/-- A record after its entries, taken in order. Fields that were seen may not come again, and
entries under other names are ignored. -/
def entries {ρ : Type} (fields : List (RecordField ρ)) :
    List String → ρ → Entries → Except Mismatch ρ
  | _, record, [] => .ok record
  | seen, record, (k, v) :: rest =>
    match k.asString? with
    | none => .error (.kind k.untagged "field identifier")
    | some name =>
      match fields.find? (·.name == name) with
      | none => entries fields seen record rest
      | some field =>
        if seen.contains name then .error (.repeatedField name)
        else do
          let record ← field.read v record
          entries fields (name :: seen) record rest

def record {ρ : Type} (name : String) (fields : List (RecordField ρ)) (initial : ρ) (v : Value) :
    Except Mismatch ρ :=
  match v.untagged with
  | .mapping es => entries fields [] initial es
  | .null => .ok initial
  | w => .error (.kind w ("struct " ++ name))

end Shape

end Deployment.Yaml
