namespace Deployment.Decimal

def digitValue (c : Char) : Option Nat :=
  let n := c.toNat
  if 48 ≤ n ∧ n ≤ 57 then some (n - 48)
  else if 97 ≤ n ∧ n ≤ 102 then some (n - 87)
  else if 65 ≤ n ∧ n ≤ 70 then some (n - 55)
  else none

def digitIn (radix : Nat) (c : Char) : Option Nat :=
  (digitValue c).filter (· < radix)

def isDigit (c : Char) : Bool :=
  48 ≤ c.toNat && c.toNat ≤ 57

def readFrom (radix sofar : Nat) : List Char → Option Nat
  | [] => some sofar
  | c :: rest => (digitIn radix c).bind fun d => readFrom radix (sofar * radix + d) rest

def read (radix : Nat) (cs : List Char) : Option Nat :=
  if cs.isEmpty then none else readFrom radix 0 cs

/-- The number that decimal digits spell, an empty text standing for zero. -/
def value (cs : List Char) : Nat :=
  cs.foldl (fun sofar c => sofar * 10 + (c.toNat - 48)) 0

def digit (n : Nat) : Char :=
  Char.ofNat (48 + n)

def digits (n : Nat) : List Char :=
  if n < 10 then [digit n] else digits (n / 10) ++ [digit (n % 10)]

def ofNat (n : Nat) : String :=
  String.ofList (digits n)

def signedDigits (i : Int) : List Char :=
  if i < 0 then '-' :: digits i.natAbs else digits i.natAbs

def ofInt (i : Int) : String :=
  String.ofList (signedDigits i)

end Deployment.Decimal
