import Deployment.Decimal.Layout

namespace Deployment.Yaml

structure Whole where
  val : Int
  lower : -0x8000000000000000 ≤ val
  upper : val < 0x10000000000000000
  deriving DecidableEq

def Whole.ofInt? (i : Int) : Option Whole :=
  if h : -0x8000000000000000 ≤ i ∧ i < 0x10000000000000000 then some ⟨i, h.1, h.2⟩ else none

def Whole.ofInt64 (i : Int64) : Whole where
  val := i.toInt
  lower := by have := i.le_toInt; omega
  upper := by have := i.toInt_lt; omega

def Whole.ofUInt64 (n : UInt64) : Whole where
  val := n.toNat
  lower := by omega
  upper := by have := n.toNat_lt; omega

inductive Number where
  | whole (n : Whole)
  | float (f : Float)

/-- Positional from a hundred-thousandth up to sixteen digits before the point; otherwise an
exponent without a plus sign. -/
def floatLayout : Decimal.Layout := ⟨some (-5, 15), false, ".nan", ".inf"⟩

def Number.text : Number → String
  | .whole n => Decimal.ofInt n.val
  | .float f => floatLayout.text f

/-- Numeric equality within each class of numbers; what is not a number equals itself. -/
def Number.same : Number → Number → Bool
  | .whole a, .whole b => a = b
  | .float a, .float b => a == b || (a.isNaN && b.isNaN)
  | _, _ => false

end Deployment.Yaml
