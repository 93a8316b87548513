import Deployment.Decimal.Digits

/-!
Locations inside a property block, and the text by which messages name them, such as
`nested.list[2].key`.
-/

namespace Deployment

inductive Segment where
  | key (name : String)
  | index (i : Nat)
  deriving DecidableEq

abbrev Location := List Segment

namespace Location

def continued : Location → String
  | [] => ""
  | .key name :: rest => "." ++ name ++ continued rest
  | .index i :: rest => "[" ++ Decimal.ofNat i ++ "]" ++ continued rest

/-- The text of a location. A key at the beginning goes without a dot. -/
def text : Location → String
  | [] => "(root)"
  | .key name :: rest => name ++ continued rest
  | .index i :: rest => continued (.index i :: rest)

end Location

end Deployment
