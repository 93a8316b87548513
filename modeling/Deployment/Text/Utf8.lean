namespace Deployment.Text.Utf8

/-- Where the reader stands between two octets: between characters, or inside one that has
gathered `bits`, still owes `owed` octets, and takes the next one from `low` to `high`. -/
inductive State where
  | between
  | inside (bits owed low high : Nat)

abbrev Piece := Option Char

def begin (b : Nat) : List Piece × State :=
  if b ≤ 0x7F then ([some (Char.ofNat b)], .between)
  else if 0xC2 ≤ b ∧ b ≤ 0xDF then ([], .inside (b - 0xC0) 1 0x80 0xBF)
  else if b = 0xE0 then ([], .inside 0 2 0xA0 0xBF)
  else if b = 0xED then ([], .inside 0xD 2 0x80 0x9F)
  else if 0xE1 ≤ b ∧ b ≤ 0xEF then ([], .inside (b - 0xE0) 2 0x80 0xBF)
  else if b = 0xF0 then ([], .inside 0 3 0x90 0xBF)
  else if 0xF1 ≤ b ∧ b ≤ 0xF3 then ([], .inside (b - 0xF0) 3 0x80 0xBF)
  else if b = 0xF4 then ([], .inside 4 3 0x80 0x8F)
  else ([none], .between)

def step : State → Nat → List Piece × State
  | .between, b => begin b
  | .inside bits owed low high, b =>
    if low ≤ b ∧ b ≤ high then
      let bits := bits * 64 + (b - 0x80)
      if owed ≤ 1 then ([some (Char.ofNat bits)], .between)
      else ([], .inside bits (owed - 1) 0x80 0xBF)
    else
      let (pieces, next) := begin b
      (none :: pieces, next)

def pieces : State → List UInt8 → List Piece
  | .between, [] => []
  | .inside .., [] => [none]
  | state, b :: rest =>
    let (found, next) := step state b.toNat
    found ++ pieces next rest

def decode (octets : List UInt8) : Option (List Char) :=
  (pieces .between octets).mapM id

/-- The characters of any octets, with a replacement character for each ill-formed stretch. -/
def decodeLossy (octets : List UInt8) : List Char :=
  (pieces .between octets).map (·.getD '\ufffd')

end Deployment.Text.Utf8
