import Deployment.Manifest.Tree
import Deployment.Property.Merge

namespace Deployment

structure NetworkContext where
  ip : Option String
  netmask : Option String
  gateway : Option String
  dns : List String
  default : List NetworkDefault
  deriving DecidableEq

structure EvaluationContext where
  deployment : String
  jobName : String
  index : UInt64
  properties : PropertyMap
  networks : List (String × NetworkContext)

inductive ContextError where
  | indexOutOfRange (job : String) (index instances : UInt64)
  deriving DecidableEq

def ContextError.message : ContextError → String
  | .indexOutOfRange job index instances =>
    "job '" ++ job ++ "' has " ++ Decimal.ofNat instances.toNat ++ " instances, index " ++
      Decimal.ofNat index.toNat ++ " is out of range"

namespace NetworkContext

/-- The network of an attachment as the instance with that index sees it. A network that the
manifest does not declare has only what the attachment says. -/
def ofAttachment (m : Manifest) (a : JobNetwork) (index : UInt64) : NetworkContext :=
  let network := m.network? a.name
  -- Static addresses are by index, so an instance beyond them falls back on the network.
  { ip := a.staticIps[index.toNat]? <|> network.bind (·.ip)
    netmask := network.bind (·.netmask)
    gateway := network.bind (·.gateway)
    dns := (network.map (·.dns)).getD []
    default := a.default }

def toProperty (n : NetworkContext) : Property :=
  .map [
    ("ip", .ofText? n.ip),
    ("netmask", .ofText? n.netmask),
    ("gateway", .ofText? n.gateway),
    ("dns", .ofTexts n.dns),
    ("default", .ofTexts (n.default.map (·.text)))]

end NetworkContext

namespace EvaluationContext

/-- The networks with one more; a network of the same name is replaced in its place. -/
def putNetwork (name : String) (n : NetworkContext) :
    List (String × NetworkContext) → List (String × NetworkContext)
  | [] => [(name, n)]
  | e :: rest => if e.1 == name then (name, n) :: rest else e :: putNetwork name n rest

def networksOf (m : Manifest) (job : Job) (index : UInt64) : List (String × NetworkContext) :=
  job.networks.foldl
    (fun networks a => putNetwork a.name (.ofAttachment m a index) networks) []

def forInstance (m : Manifest) (job : Job) (index : UInt64) :
    Except ContextError EvaluationContext :=
  if index < job.instances then
    .ok {
      deployment := m.name
      jobName := job.name
      index
      properties := m.properties.merge job.properties
      networks := networksOf m job index }
  else .error (.indexOutOfRange job.name index job.instances)

def toProperty (c : EvaluationContext) : Property :=
  .map [
    ("deployment", .string c.deployment),
    ("job_name", .string c.jobName),
    ("index", .uint c.index),
    ("properties", .map c.properties),
    ("networks", .map (c.networks.map fun (name, n) => (name, n.toProperty)))]

end EvaluationContext

end Deployment
