import Deployment.Decimal.Shortest

namespace Deployment.Decimal

structure Layout where
  /-- The magnitudes, least and greatest, that are written without an exponent; every magnitude
  when there are none. -/
  positional : Option (Int × Int)
  signedExponent : Bool
  notANumber : String
  infinity : String

def pointed (ds : List Char) : List Char :=
  match ds with
  | [] => []
  | [d] => [d]
  | d :: rest => d :: '.' :: rest

/-- The digits written positionally, the first of them standing for `10 ^ magnitude`; there is
always a digit after the point. -/
def writtenOut (ds : List Char) (magnitude : Int) : List Char :=
  if magnitude < 0 then
    ['0', '.'] ++ List.replicate (-magnitude - 1).toNat '0' ++ ds
  else
    let whole := magnitude.toNat + 1
    let filled := ds ++ List.replicate (whole - ds.length) '0'
    filled.take whole ++ '.' :: (if ds.length ≤ whole then ['0'] else ds.drop whole)

def Layout.spell (layout : Layout) (s : Scientific) : List Char :=
  let ds := digits s.digits
  let kept := (ds.reverse.dropWhile (· == '0')).reverse
  let magnitude := s.exponent + (ds.length - 1 : Nat)
  let direct := match layout.positional with
    | none => true
    | some (least, greatest) => least ≤ magnitude && magnitude ≤ greatest
  if direct then writtenOut kept magnitude
  else
    pointed kept ++ 'e' ::
      (if 0 ≤ magnitude ∧ layout.signedExponent then ['+'] else []) ++ signedDigits magnitude

def Layout.textOfBits (layout : Layout) (bits : Nat) : String :=
  let magnitude := bits % 0x8000000000000000
  let sign := if bits < 0x8000000000000000 then [] else ['-']
  if 0x7FF0000000000000 < magnitude then layout.notANumber
  else if magnitude = 0x7FF0000000000000 then String.ofList sign ++ layout.infinity
  else if magnitude = 0 then String.ofList (sign ++ ['0', '.', '0'])
  else String.ofList (sign ++ layout.spell (shortest magnitude))

def Layout.text (layout : Layout) (f : Float) : String :=
  layout.textOfBits f.toBits.toNat

end Deployment.Decimal
