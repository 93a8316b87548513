import Deployment.Manifest.Label
import Deployment.Manifest.WatchTime
import Deployment.Property.Basic

namespace Deployment

structure Network where
  name : String
  type : NetworkType
  ip : Option String
  netmask : Option String
  gateway : Option String
  dns : List String
  cloudProperties : PropertyMap

structure ResourcePool where
  name : String
  network : String
  cloudProperties : PropertyMap
  env : PropertyMap

structure DiskPool where
  name : String
  diskSize : UInt64
  cloudProperties : PropertyMap

structure TemplateRef where
  name : String
  release : String
  deriving DecidableEq

structure JobNetwork where
  name : String
  default : List NetworkDefault
  staticIps : List String
  deriving DecidableEq

structure Job where
  name : String
  instances : UInt64
  lifecycle : JobLifecycle
  templates : List TemplateRef
  networks : List JobNetwork
  persistentDisk : UInt64
  persistentDiskPool : Option String
  properties : PropertyMap

structure Manifest where
  name : String
  watchTime : WatchTime
  networks : List Network
  resourcePools : List ResourcePool
  diskPools : List DiskPool
  jobs : List Job
  properties : PropertyMap

namespace Manifest

def network? (m : Manifest) (name : String) : Option Network :=
  m.networks.find? (·.name == name)

def resourcePool? (m : Manifest) (name : String) : Option ResourcePool :=
  m.resourcePools.find? (·.name == name)

def diskPool? (m : Manifest) (name : String) : Option DiskPool :=
  m.diskPools.find? (·.name == name)

def job? (m : Manifest) (name : String) : Option Job :=
  m.jobs.find? (·.name == name)

end Manifest

def Job.network? (j : Job) (name : String) : Option JobNetwork :=
  j.networks.find? (·.name == name)

def JobNetwork.isDefaultFor (n : JobNetwork) (role : String) : Bool :=
  n.default.any (·.text == role)

end Deployment
