import Deployment.Manifest.Model
import Deployment.Property.Build
import Deployment.Yaml.Printer
import Deployment.Json.Printer

namespace Deployment

namespace Property

def ofText? : Option String → Property
  | some s => .string s
  | none => .null

def ofTexts (texts : List String) : Property :=
  .list (texts.map .string)

end Property

def WatchTime.toProperty (w : WatchTime) : Property :=
  .map [("start", .uint w.start), ("end", .uint w.stop)]

def Network.toProperty (n : Network) : Property :=
  .map [
    ("name", .string n.name),
    ("type", .string n.type.text),
    ("ip", .ofText? n.ip),
    ("netmask", .ofText? n.netmask),
    ("gateway", .ofText? n.gateway),
    ("dns", .ofTexts n.dns),
    ("cloud_properties", .map n.cloudProperties)]

def ResourcePool.toProperty (p : ResourcePool) : Property :=
  .map [
    ("name", .string p.name),
    ("network", .string p.network),
    ("cloud_properties", .map p.cloudProperties),
    ("env", .map p.env)]

def DiskPool.toProperty (p : DiskPool) : Property :=
  .map [
    ("name", .string p.name),
    ("disk_size", .uint p.diskSize),
    ("cloud_properties", .map p.cloudProperties)]

def TemplateRef.toProperty (t : TemplateRef) : Property :=
  .map [("name", .string t.name), ("release", .string t.release)]

def JobNetwork.toProperty (n : JobNetwork) : Property :=
  .map [
    ("name", .string n.name),
    ("default", .ofTexts (n.default.map (·.text))),
    ("static_ips", .ofTexts n.staticIps)]

def Job.toProperty (j : Job) : Property :=
  .map [
    ("name", .string j.name),
    ("instances", .uint j.instances),
    ("lifecycle", .string j.lifecycle.text),
    ("templates", .list (j.templates.map (·.toProperty))),
    ("networks", .list (j.networks.map (·.toProperty))),
    ("persistent_disk", .uint j.persistentDisk),
    ("persistent_disk_pool", .ofText? j.persistentDiskPool),
    ("properties", .map j.properties)]

def Manifest.toProperty (m : Manifest) : Property :=
  .map [
    ("name", .string m.name),
    ("update", .map [("update_watch_time", m.watchTime.toProperty)]),
    ("networks", .list (m.networks.map (·.toProperty))),
    ("resource_pools", .list (m.resourcePools.map (·.toProperty))),
    ("disk_pools", .list (m.diskPools.map (·.toProperty))),
    ("jobs", .list (m.jobs.map (·.toProperty))),
    ("properties", .map m.properties)]

namespace Property

def toYamlText (p : Property) : Option String :=
  p.toYaml.print

end Property

namespace Manifest

def toJson (m : Manifest) : String :=
  m.toProperty.toJsonPretty

def toYamlText (m : Manifest) : Option String :=
  m.toProperty.toYamlText

end Manifest

end Deployment
