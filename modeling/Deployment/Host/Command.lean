import Deployment.Decimal.Digits

namespace Deployment.Host

structure Command where
  name : String
  args : List String
  deriving DecidableEq

def Command.line (c : Command) : String :=
  " ".intercalate (c.name :: c.args)

/-- What a finished program leaves behind. One that a signal ended has no exit code. -/
structure Output where
  code : Option Int := some 0
  stdout : String := ""
  stderr : String := ""
  deriving DecidableEq

namespace Output

def success (o : Output) : Bool :=
  o.code = some 0

def statusText (o : Output) : String :=
  match o.code with
  | some code => "exit code " ++ Decimal.ofInt code
  | none => "signal"

end Output

end Deployment.Host
