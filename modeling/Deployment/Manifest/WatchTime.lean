import Deployment.Decimal.Digits
import Deployment.Text.Blank
import Deployment.Text.Split

namespace Deployment

structure WatchTime where
  start : UInt64
  stop : UInt64
  deriving DecidableEq

inductive WatchTimeError where
  | malformed (expression part : String)
  | tooManyBounds (expression : String)
  | inverted (start stop : UInt64)
  deriving DecidableEq

def WatchTimeError.message : WatchTimeError → String
  | .malformed expression part =>
    "malformed watch time '" ++ expression ++ "': '" ++ part ++
      "' is not a non-negative integer"
  | .tooManyBounds expression =>
    "malformed watch time '" ++ expression ++ "': expected '<end>' or '<start>-<end>'"
  | .inverted start stop =>
    "invalid watch time interval: start " ++ Decimal.ofNat start.toNat ++
      " is greater than end " ++ Decimal.ofNat stop.toNat

namespace WatchTime

def standard : WatchTime := ⟨0, 300000⟩

def text (w : WatchTime) : String :=
  Decimal.ofNat w.start.toNat ++ "-" ++ Decimal.ofNat w.stop.toNat

/-- A number of 64 bits in decimal digits, a plus sign before them being allowed. -/
def readBound (cs : List Char) : Option UInt64 :=
  let magnitude := match cs with
    | '+' :: rest => rest
    | _ => cs
  ((Decimal.read 10 magnitude).filter (· < 0x10000000000000000)).map UInt64.ofNat

/-- One bound of an expression, blanks around it aside. An empty bound is reported as the whole
expression. -/
def bound (expression : String) (part : List Char) : Except WatchTimeError UInt64 :=
  let part := Text.trim part
  match readBound part with
  | some n => .ok n
  | none =>
    .error (.malformed expression
      (if part.isEmpty then Text.trimString expression else String.ofList part))

def parse (expression : String) : Except WatchTimeError WatchTime :=
  match Text.splitAt '-' expression.toList with
  | [stop] => do
    let stop ← bound expression stop
    return ⟨0, stop⟩
  | [start, stop] => do
    let start ← bound expression start
    let stop ← bound expression stop
    if start > stop then .error (.inverted start stop) else return ⟨start, stop⟩
  | _ => .error (.tooManyBounds expression)

end WatchTime

end Deployment
