import Deployment.Decimal.Layout
import Deployment.Property.Basic
import Deployment.Text.Quoted

namespace Deployment.Json

/-- Positional from a hundred-thousandth up to sixteen digits before the point; otherwise an
exponent with its sign. -/
def floatLayout : Decimal.Layout := ⟨some (-5, 15), true, "null", "null"⟩

def float (f : Float) : String :=
  if f.isFinite then floatLayout.text f else "null"

/-- One character between the quotes: only quotes, backslashes and controls are escaped. -/
def stringChar (c : Char) : List Char :=
  if c = '"' then ['\\', '"']
  else if c = '\\' then ['\\', '\\']
  else if c.toNat = 8 then ['\\', 'b']
  else if c = '\t' then ['\\', 't']
  else if c = '\n' then ['\\', 'n']
  else if c.toNat = 12 then ['\\', 'f']
  else if c = '\r' then ['\\', 'r']
  else if c.toNat < 0x20 then ['\\', 'u'] ++ Text.hexPadded 4 c.toNat
  else [c]

def stringChars (cs : List Char) : List Char :=
  '"' :: cs.flatMap stringChar ++ ['"']

def string (s : String) : String :=
  String.ofList (stringChars s.toList)

def scalar : Property → String
  | .bool b => toString b
  | .int i => Decimal.ofInt i.toInt
  | .uint n => Decimal.ofNat n.toNat
  | .float f => float f
  | .string s => string s
  | _ => "null"

mutual
def compact : Property → String
  | .list items => "[" ++ compactItems items ++ "]"
  | .map es => "\x7b" ++ compactEntries es ++ "\x7d"
  | p => scalar p

def compactItems : List Property → String
  | [] => ""
  | [p] => compact p
  | p :: rest => compact p ++ "," ++ compactItems rest

def compactEntries : PropertyMap → String
  | [] => ""
  | [(k, p)] => string k ++ ":" ++ compact p
  | (k, p) :: rest => string k ++ ":" ++ compact p ++ "," ++ compactEntries rest
end

def newline (depth : Nat) : String :=
  "\n" ++ String.ofList (List.replicate (2 * depth) ' ')

mutual
/-- A tree with one entry per line, indented by two columns for each depth. -/
def pretty (depth : Nat) : Property → String
  | .list [] => "[]"
  | .list items => "[" ++ prettyItems (depth + 1) items ++ newline depth ++ "]"
  | .map [] => "\x7b\x7d"
  | .map es => "\x7b" ++ prettyEntries (depth + 1) es ++ newline depth ++ "\x7d"
  | p => scalar p

def prettyItems (depth : Nat) : List Property → String
  | [] => ""
  | [p] => newline depth ++ pretty depth p
  | p :: rest => newline depth ++ pretty depth p ++ "," ++ prettyItems depth rest

def prettyEntries (depth : Nat) : PropertyMap → String
  | [] => ""
  | [(k, p)] => newline depth ++ string k ++ ": " ++ pretty depth p
  | (k, p) :: rest =>
    newline depth ++ string k ++ ": " ++ pretty depth p ++ "," ++ prettyEntries depth rest
end

end Deployment.Json

namespace Deployment.Property

def toJson (p : Property) : String :=
  Json.compact p

def toJsonPretty (p : Property) : String :=
  Json.pretty 0 p

end Deployment.Property
