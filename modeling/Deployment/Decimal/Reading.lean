import Deployment.Decimal.Digits

namespace Deployment.Decimal

structure Literal where
  whole : List Char
  fraction : List Char
  exponent : Int

def readExponent (cs : List Char) : Option Int :=
  match cs with
  | '-' :: rest => (read 10 rest).map fun n => -(n : Int)
  | '+' :: rest => (read 10 rest).map fun n => (n : Int)
  | rest => (read 10 rest).map fun n => (n : Int)

/-- The decimal that an unsigned text spells; it has a digit before or after the point. -/
def Literal.ofText (cs : List Char) : Option Literal :=
  let whole := cs.takeWhile isDigit
  let afterWhole := cs.dropWhile isDigit
  let (fraction, tail) := match afterWhole with
    | '.' :: rest => (rest.takeWhile isDigit, rest.dropWhile isDigit)
    | rest => ([], rest)
  if whole.isEmpty && fraction.isEmpty then none
  else
    match tail with
    | [] => some ⟨whole, fraction, 0⟩
    | c :: rest =>
      if c = 'e' ∨ c = 'E' then (readExponent rest).map fun e => ⟨whole, fraction, e⟩ else none

/-- The float nearest to the decimal. Magnitudes that no float reaches are told from the number
of digits alone. -/
def Literal.nearest (l : Literal) : Float :=
  let significant := (l.whole ++ l.fraction).dropWhile (· == '0')
  let exponent := l.exponent - l.fraction.length
  let magnitude := exponent + significant.length
  if significant.isEmpty then 0.0
  else if 400 < magnitude then Float.ofScientific 1 false 400
  else if magnitude < -400 then 0.0
  else
    let mantissa := value significant
    if exponent < 0 then Float.ofScientific mantissa true exponent.natAbs
    else Float.ofScientific mantissa false exponent.toNat

def readFloat (cs : List Char) : Option Float :=
  match cs with
  | '-' :: rest => (Literal.ofText rest).map fun l => -l.nearest
  | '+' :: rest => (Literal.ofText rest).map Literal.nearest
  | rest => (Literal.ofText rest).map Literal.nearest

end Deployment.Decimal
