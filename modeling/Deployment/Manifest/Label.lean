namespace Deployment

inductive LabelKind where
  | networkType
  | jobLifecycle
  | networkDefault
  deriving DecidableEq

structure Label (kind : LabelKind) where
  text : String
  deriving DecidableEq

/-- How a network gets its addresses, such as `dynamic`, `manual` or `vip`. -/
abbrev NetworkType := Label .networkType

/-- How long the instances of a job live, such as `service` or `errand`. -/
abbrev JobLifecycle := Label .jobLifecycle

/-- What a job uses a network for by default, such as `gateway` or `dns`. -/
abbrev NetworkDefault := Label .networkDefault

def Label.order {kind : LabelKind} (a b : Label kind) : Ordering :=
  compare a.text b.text

def JobLifecycle.service : JobLifecycle := ⟨"service"⟩

def JobLifecycle.errand : JobLifecycle := ⟨"errand"⟩

def JobLifecycle.isErrand (l : JobLifecycle) : Bool :=
  l == JobLifecycle.errand

end Deployment
