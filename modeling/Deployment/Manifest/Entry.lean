import Deployment.Yaml.Shape

namespace Deployment

open Yaml (Value Mismatch)
open Yaml.Shape

structure NetworkEntry where
  name : String := ""
  type : String := ""
  ip : Option String := none
  netmask : Option String := none
  gateway : Option String := none
  dns : List String := []
  cloudProperties : Value := .null

structure ResourcePoolEntry where
  name : String := ""
  network : String := ""
  cloudProperties : Value := .null
  env : Value := .null

structure DiskPoolEntry where
  name : String := ""
  diskSize : UInt64 := 0
  cloudProperties : Value := .null

structure TemplateEntry where
  name : String := ""
  release : String := ""

structure JobNetworkEntry where
  name : String := ""
  default : List String := []
  staticIps : List String := []

structure JobEntry where
  name : String := ""
  instances : UInt64 := 0
  lifecycle : Option String := none
  templates : List TemplateEntry := []
  networks : List JobNetworkEntry := []
  persistentDisk : UInt64 := 0
  persistentDiskPool : Option String := none
  properties : Value := .null

structure UpdateEntry where
  watchTime : Option Value := none

structure ManifestEntry where
  name : String := ""
  update : UpdateEntry := {}
  networks : List Value := []
  resourcePools : List Value := []
  diskPools : List Value := []
  jobs : List Value := []
  properties : Value := .null

def NetworkEntry.fields : List (RecordField NetworkEntry) :=
  [⟨"name", fun v e => return { e with name := ← withDefault "" text v }⟩,
   ⟨"type", fun v e => return { e with type := ← withDefault "" text v }⟩,
   ⟨"ip", fun v e => return { e with ip := ← optional text v }⟩,
   ⟨"netmask", fun v e => return { e with netmask := ← optional text v }⟩,
   ⟨"gateway", fun v e => return { e with gateway := ← optional text v }⟩,
   ⟨"dns", fun v e => return { e with dns := ← withDefault [] (list text) v }⟩,
   ⟨"cloud_properties", fun v e => return { e with cloudProperties := v }⟩]

def NetworkEntry.read : Value → Except Mismatch NetworkEntry :=
  record "RawNetwork" NetworkEntry.fields {}

def ResourcePoolEntry.fields : List (RecordField ResourcePoolEntry) :=
  [⟨"name", fun v e => return { e with name := ← withDefault "" text v }⟩,
   ⟨"network", fun v e => return { e with network := ← withDefault "" text v }⟩,
   ⟨"cloud_properties", fun v e => return { e with cloudProperties := v }⟩,
   ⟨"env", fun v e => return { e with env := v }⟩]

def ResourcePoolEntry.read : Value → Except Mismatch ResourcePoolEntry :=
  record "RawResourcePool" ResourcePoolEntry.fields {}

def DiskPoolEntry.fields : List (RecordField DiskPoolEntry) :=
  [⟨"name", fun v e => return { e with name := ← withDefault "" text v }⟩,
   ⟨"disk_size", fun v e => return { e with diskSize := ← withDefault 0 natural v }⟩,
   ⟨"cloud_properties", fun v e => return { e with cloudProperties := v }⟩]

def DiskPoolEntry.read : Value → Except Mismatch DiskPoolEntry :=
  record "RawDiskPool" DiskPoolEntry.fields {}

def TemplateEntry.fields : List (RecordField TemplateEntry) :=
  [⟨"name", fun v e => return { e with name := ← withDefault "" text v }⟩,
   ⟨"release", fun v e => return { e with release := ← withDefault "" text v }⟩]

def TemplateEntry.read : Value → Except Mismatch TemplateEntry :=
  record "RawReleaseJobRef" TemplateEntry.fields {}

def JobNetworkEntry.fields : List (RecordField JobNetworkEntry) :=
  [⟨"name", fun v e => return { e with name := ← withDefault "" text v }⟩,
   ⟨"default", fun v e => return { e with default := ← withDefault [] (list text) v }⟩,
   ⟨"static_ips", fun v e => return { e with staticIps := ← withDefault [] (list text) v }⟩]

def JobNetworkEntry.read : Value → Except Mismatch JobNetworkEntry :=
  record "RawJobNetwork" JobNetworkEntry.fields {}

def JobEntry.fields : List (RecordField JobEntry) :=
  [⟨"name", fun v e => return { e with name := ← withDefault "" text v }⟩,
   ⟨"instances", fun v e => return { e with instances := ← withDefault 0 natural v }⟩,
   ⟨"lifecycle", fun v e => return { e with lifecycle := ← optional text v }⟩,
   ⟨"templates", fun v e =>
      return { e with templates := ← withDefault [] (list TemplateEntry.read) v }⟩,
   ⟨"networks", fun v e =>
      return { e with networks := ← withDefault [] (list JobNetworkEntry.read) v }⟩,
   ⟨"persistent_disk", fun v e => return { e with persistentDisk := ← withDefault 0 natural v }⟩,
   ⟨"persistent_disk_pool", fun v e =>
      return { e with persistentDiskPool := ← optional text v }⟩,
   ⟨"properties", fun v e => return { e with properties := v }⟩]

def JobEntry.read : Value → Except Mismatch JobEntry :=
  record "RawJob" JobEntry.fields {}

def UpdateEntry.fields : List (RecordField UpdateEntry) :=
  [⟨"update_watch_time", fun v e => return { e with watchTime := ← optional anything v }⟩]

def UpdateEntry.read : Value → Except Mismatch UpdateEntry :=
  record "RawUpdate" UpdateEntry.fields {}

def ManifestEntry.fields : List (RecordField ManifestEntry) :=
  [⟨"name", fun v e => return { e with name := ← withDefault "" text v }⟩,
   ⟨"update", fun v e => return { e with update := ← withDefault {} UpdateEntry.read v }⟩,
   ⟨"networks", fun v e => return { e with networks := ← withDefault [] (list anything) v }⟩,
   ⟨"resource_pools", fun v e =>
      return { e with resourcePools := ← withDefault [] (list anything) v }⟩,
   ⟨"disk_pools", fun v e => return { e with diskPools := ← withDefault [] (list anything) v }⟩,
   ⟨"jobs", fun v e => return { e with jobs := ← withDefault [] (list anything) v }⟩,
   ⟨"properties", fun v e => return { e with properties := v }⟩]

def ManifestEntry.read : Value → Except Mismatch ManifestEntry :=
  record "RawManifest" ManifestEntry.fields {}

def ManifestEntry.keys : List String :=
  ManifestEntry.fields.map (·.name)

end Deployment
