import Deployment.Decimal.Reading

namespace Deployment.Yaml

inductive Scalar where
  | null
  | bool (b : Bool)
  | whole (i : Int)
  | float (f : Float)
  | string (s : String)

namespace Scalar

def isNull (cs : List Char) : Bool :=
  cs.isEmpty || ["~", "null", "Null", "NULL"].any (·.toList == cs)

def readBool (cs : List Char) : Option Bool :=
  if ["true", "True", "TRUE"].any (·.toList == cs) then some true
  else if ["false", "False", "FALSE"].any (·.toList == cs) then some false
  else none

def unsigned (cs : List Char) : List Char :=
  match cs with
  | '+' :: rest => rest
  | '-' :: rest => rest
  | rest => rest

/-- Two or more digits of which the first is a zero, after an optional sign: such a text is no
number. -/
def isPaddedDigits (cs : List Char) : Bool :=
  match unsigned cs with
  | '0' :: d :: rest => (d :: rest).all Decimal.isDigit
  | _ => false

def readMagnitude (cs : List Char) : Option Nat :=
  match cs with
  | '0' :: 'x' :: rest => Decimal.read 16 rest
  | '0' :: 'o' :: rest => Decimal.read 8 rest
  | '0' :: 'b' :: rest => Decimal.read 2 rest
  | rest => Decimal.read 10 rest

def readWhole (cs : List Char) : Option Int :=
  if isPaddedDigits cs then none
  else
    match cs with
    | '-' :: rest =>
      ((readMagnitude rest).filter (· ≤ 0x80000000000000000000000000000000)).map fun n =>
        -(n : Int)
    | _ =>
      let rest := match cs with
        | '+' :: rest => rest
        | rest => rest
      ((readMagnitude rest).filter (· < 0x100000000000000000000000000000000)).map fun n => (n : Int)

def readSpecialFloat (cs : List Char) : Option Float :=
  if [".inf", ".Inf", ".INF", "+.inf", "+.Inf", "+.INF"].any (·.toList == cs) then
    some (Float.ofBits 0x7FF0000000000000)
  else if ["-.inf", "-.Inf", "-.INF"].any (·.toList == cs) then
    some (Float.ofBits 0xFFF0000000000000)
  else if [".nan", ".NaN", ".NAN"].any (·.toList == cs) then
    some (Float.ofBits 0x7FF8000000000000)
  else none

def readFloat (cs : List Char) : Option Float :=
  readSpecialFloat cs <|> (Decimal.readFloat cs).filter (·.isFinite)

/-- The meaning of a plain scalar: null, truth value, whole number, float or string, in this
order. -/
def resolve (cs : List Char) : Scalar :=
  if isNull cs then .null
  else
    match readBool cs with
    | some b => .bool b
    | none =>
      match readWhole cs with
      | some i => .whole i
      | none =>
        match if isPaddedDigits cs then none else readFloat cs with
        | some f => .float f
        | none => .string (String.ofList cs)

end Scalar

end Deployment.Yaml
