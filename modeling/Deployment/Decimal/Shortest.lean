import Deployment.Decimal.Digits

/-!
The shortest decimal of a binary float: of all decimals that lie in the interval of reals
rounding to the float, those with the fewest digits, and of these the nearest one.
-/

namespace Deployment.Decimal

structure Scientific where
  digits : Nat
  exponent : Int

/-- The interval of reals that round to a float, over a common denominator. The ends belong to it
when the float's mantissa is even. -/
structure Interval where
  low : Nat
  mid : Nat
  high : Nat
  denominator : Nat
  closed : Bool

def Interval.ofBits (bits : Nat) : Interval :=
  let fraction : Nat := bits % Nat.pow 2 52
  let field : Nat := bits / Nat.pow 2 52 % Nat.pow 2 11
  let mantissa : Nat := if field = 0 then fraction else Nat.pow 2 52 + fraction
  let power : Int := if field = 0 then -1074 else (field : Int) - 1075
  let below : Nat := if fraction = 0 ∧ 1 < field then 1 else 2
  let scale : Nat := Nat.pow 2 power.toNat
  { low := (4 * mantissa - below) * scale
    mid := 4 * mantissa * scale
    high := (4 * mantissa + 2) * scale
    denominator := 4 * Nat.pow 2 (-power).toNat
    closed := mantissa % 2 = 0 }

def Interval.contains (i : Interval) (n : Nat) (e : Int) : Bool :=
  let scaled := n * Nat.pow 10 e.toNat * i.denominator
  let shift := Nat.pow 10 (-e).toNat
  if i.closed then i.low * shift ≤ scaled && scaled ≤ i.high * shift
  else i.low * shift < scaled && scaled < i.high * shift

def Interval.magnitude (i : Interval) : Int :=
  let estimate : Int := (Decimal.digits i.mid).length - (Decimal.digits i.denominator).length
  let reaches (e : Int) : Bool := Nat.pow 10 e.toNat * i.denominator ≤ i.mid * Nat.pow 10 (-e).toNat
  if reaches (estimate + 1) then estimate + 1
  else if reaches estimate then estimate
  else estimate - 1

/-- The better of the middle's two neighbours on the grid of multiples of `10 ^ e`: one that lies
in the interval, the nearer one when both do, the even one when they are equally near. -/
def Interval.onGrid (i : Interval) (e : Int) : Option Nat :=
  let top := i.mid * Nat.pow 10 (-e).toNat
  let unit := i.denominator * Nat.pow 10 e.toNat
  let n := top / unit
  let excess := top % unit
  match i.contains n e, i.contains (n + 1) e with
  | true, false => some n
  | false, true => some (n + 1)
  | true, true =>
    if 2 * excess < unit ∨ (2 * excess = unit ∧ n % 2 = 0) then some n else some (n + 1)
  | false, false => none

/-- The first hit on the grids of one digit, two digits, and so on. -/
def Interval.shortest (i : Interval) : Scientific :=
  let magnitude := i.magnitude
  let hits := (List.range 18).filterMap fun (k : Nat) =>
    (i.onGrid (magnitude - k)).map fun n => (⟨n, magnitude - k⟩ : Scientific)
  hits.headD ⟨0, 0⟩

def shortest (bits : Nat) : Scientific :=
  (Interval.ofBits bits).shortest

end Deployment.Decimal
