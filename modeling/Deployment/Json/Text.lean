import Deployment.Decimal.Digits

namespace Deployment.Json

inductive TextState where
  | text
  | escape
  | digits (high : Option Nat) (left value : Nat)
  | halfway (high : Nat)
  | halfwayMark (high : Nat)

namespace TextState

def simpleEscape (c : Char) : Option Char :=
  if c = '"' then some '"'
  else if c = '\\' then some '\\'
  else if c = '/' then some '/'
  else if c = 'b' then some (Char.ofNat 8)
  else if c = 'f' then some (Char.ofNat 12)
  else if c = 'n' then some '\n'
  else if c = 'r' then some '\r'
  else if c = 't' then some '\t'
  else none

/-- What a complete code unit leads to: a character, or a state that waits for more. -/
def unit (high : Option Nat) (value : Nat) : Option (Option Char × TextState) :=
  match high with
  | none =>
    if 0xD800 ≤ value ∧ value ≤ 0xDBFF then some (none, .halfway value)
    else if 0xDC00 ≤ value ∧ value ≤ 0xDFFF then none
    else some (some (Char.ofNat value), .text)
  | some high =>
    if 0xDC00 ≤ value ∧ value ≤ 0xDFFF then
      some (some (Char.ofNat (0x10000 + (high - 0xD800) * 0x400 + (value - 0xDC00))), .text)
    else none

def step : TextState → Char → Option (Option Char × TextState)
  | .text, c =>
    if c = '\\' then some (none, .escape)
    else if c.toNat < 0x20 then none
    else some (some c, .text)
  | .escape, c =>
    if c = 'u' then some (none, .digits none 4 0)
    else (simpleEscape c).map fun d => (some d, .text)
  | .digits high left value, c =>
    (Decimal.digitIn 16 c).bind fun d =>
      if left ≤ 1 then unit high (value * 16 + d)
      else some (none, .digits high (left - 1) (value * 16 + d))
  | .halfway high, c => if c = '\\' then some (none, .halfwayMark high) else none
  | .halfwayMark high, c => if c = 'u' then some (none, .digits (some high) 4 0) else none

end TextState

def readText : TextState → List Char → Option (List Char × List Char)
  | _, [] => none
  | .text, '"' :: rest => some ([], rest)
  | state, c :: rest =>
    (state.step c).bind fun (found, next) =>
      (readText next rest).map fun (text, rest) => (found.toList ++ text, rest)

/-- The rest of a string that is not kept: any four digits make a code unit. -/
def skipText : TextState → List Char → Option (List Char)
  | _, [] => none
  | .text, '"' :: rest => some rest
  | .digits _ left _, c :: rest =>
    (Decimal.digitIn 16 c).bind fun _ =>
      skipText (if left ≤ 1 then .text else .digits none (left - 1) 0) rest
  | state, c :: rest => (state.step c).bind fun (_, next) => skipText next rest

end Deployment.Json
