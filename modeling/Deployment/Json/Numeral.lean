import Deployment.Decimal.Digits
import Deployment.Property.Basic

namespace Deployment.Json

structure Numeral where
  negative : Bool
  whole : List Char
  fraction : Option (List Char)
  exponent : Option Int

namespace Numeral

def takeDigits (cs : List Char) : List Char × List Char :=
  (cs.takeWhile Decimal.isDigit, cs.dropWhile Decimal.isDigit)

def readFraction : List Char → Option (Option (List Char) × List Char)
  | '.' :: cs =>
    match takeDigits cs with
    | ([], _) => none
    | (ds, rest) => some (some ds, rest)
  | cs => some (none, cs)

def readExponent : List Char → Option (Option Int × List Char)
  | c :: cs =>
    if c = 'e' ∨ c = 'E' then
      let (negative, cs) := match cs with
        | '+' :: rest => (false, rest)
        | '-' :: rest => (true, rest)
        | _ => (false, cs)
      match takeDigits cs with
      | ([], _) => none
      | (ds, rest) =>
        let n : Int := Decimal.value ds
        some (some (if negative then -n else n), rest)
    else some (none, c :: cs)
  | [] => some (none, [])

/-- A number at the beginning of a text. A zero is not followed by more digits. -/
def read (cs : List Char) : Option (Numeral × List Char) := do
  let (negative, cs) := match cs with
    | '-' :: rest => (true, rest)
    | _ => (false, cs)
  let (whole, cs) := takeDigits cs
  if whole.isEmpty || (whole.head? == some '0' && whole.length > 1) then none
  else do
    let (fraction, cs) ← readFraction cs
    let (exponent, cs) ← readExponent cs
    return (⟨negative, whole, fraction, exponent⟩, cs)

/-- A significand with as many of the digits appended as 64 bits hold, and how many these are. -/
def absorb (significand : Nat) : List Char → Nat × Nat
  | [] => (significand, 0)
  | d :: rest =>
    let grown := significand * 10 + (d.toNat - 48)
    if grown < 0x10000000000000000 then
      let (full, count) := absorb grown rest
      (full, count + 1)
    else (significand, 0)

def powerOfTen (e : Nat) : Float :=
  Float.ofScientific 1 false e

/-- A float times a power of ten, in steps that floats can take; no result where it would be
infinite. -/
def scale (f : Float) (e : Int) : Option Float :=
  if e.natAbs ≤ 308 then
    if 0 ≤ e then
      let scaled := f * powerOfTen e.natAbs
      if scaled.isInf then none else some scaled
    else some (f / powerOfTen e.natAbs)
  else if f == 0 then some f
  else if 0 ≤ e then none
  else scale (f / powerOfTen 308) (e + 308)
termination_by e.natAbs

/-- The property that a number stands for. There is none for what exceeds all floats. -/
def toProperty (n : Numeral) : Option Property :=
  let (significand, taken) := absorb 0 n.whole
  let left : Int := (n.whole.length - taken : Nat)
  let signed (f : Float) : Property := .float (if n.negative then -f else f)
  match n.fraction, n.exponent with
  | none, none =>
    if left ≠ 0 then (scale (UInt64.ofNat significand).toFloat left).map signed
    else if !n.negative then
      if significand < 0x8000000000000000 then some (.int (Int64.ofNat significand))
      else some (.uint (UInt64.ofNat significand))
    else if 0 < significand ∧ significand ≤ 0x8000000000000000 then
      some (.int (Int64.ofInt (-significand)))
    -- A negative zero, or an integer below all signed words.
    else some (signed (UInt64.ofNat significand).toFloat)
  | fraction, exponent =>
    let (significand, after) := absorb significand (fraction.getD [])
    (scale (UInt64.ofNat significand).toFloat (exponent.getD 0 + left - after)).map signed

end Numeral

end Deployment.Json
