import Deployment.Manifest.Entry
import Deployment.Manifest.Model
import Deployment.Property.Build

/-!
The sections of a manifest: from the entries as written to the entities they describe. The first
entry that cannot be read ends its section and is reported with its index and, where it has one,
its name.
-/

namespace Deployment

open Yaml (Value Mismatch)

inductive Section where
  | networks
  | resourcePools
  | diskPools
  | jobs
  deriving DecidableEq

def Section.key : Section → String
  | .networks => "networks"
  | .resourcePools => "resource_pools"
  | .diskPools => "disk_pools"
  | .jobs => "jobs"

def Section.noun : Section → String
  | .networks => "network"
  | .resourcePools => "resource_pool"
  | .diskPools => "disk_pool"
  | .jobs => "job"

inductive Block where
  | cloudProperties
  | env
  | properties
  deriving DecidableEq

def Block.key : Block → String
  | .cloudProperties => "cloud_properties"
  | .env => "env"
  | .properties => "properties"

inductive EntryError where
  | decode (mismatch : Mismatch)
  | properties (block : Block) (error : PropertyError)
  | missingTemplateName (index : Nat)
  | missingNetworkName (index : Nat)

def EntryError.message : EntryError → String
  | .decode mismatch => "decoding entry: " ++ mismatch.message
  | .properties block error => block.key ++ ": " ++ error.message
  | .missingTemplateName i => "template at index " ++ Decimal.ofNat i ++ " has no name"
  | .missingNetworkName i => "network at index " ++ Decimal.ofNat i ++ " has no name"

structure EntryLabel where
  index : Nat
  name : Option String
  deriving DecidableEq

def EntryLabel.text (l : EntryLabel) : String :=
  match l.name with
  | some name => "'" ++ name ++ "' (index " ++ Decimal.ofNat l.index ++ ")"
  | none => "at index " ++ Decimal.ofNat l.index

structure SectionError where
  part : Section
  label : EntryLabel
  cause : EntryError

def SectionError.message (e : SectionError) : String :=
  "parsing " ++ e.part.key ++ ": " ++ e.part.noun ++ " " ++ e.label.text ++ ": " ++
    e.cause.message

/-- The name that an entry as written gives itself, unless it is empty. -/
def entryName (entry : Value) : Option String :=
  ((entry.get? "name").bind Value.asString?).filter (· ≠ "")

def propertyBlock (block : Block) (v : Value) : Except EntryError PropertyMap :=
  (PropertyMap.build v).mapError (.properties block)

def readEach {α β ε : Type} (read : Nat → α → Except ε β) : Nat → List α → Except ε (List β)
  | _, [] => .ok []
  | i, x :: rest => do
    let y ← read i x
    let ys ← readEach read (i + 1) rest
    return y :: ys

def TemplateRef.ofEntry (i : Nat) (e : TemplateEntry) : Except EntryError TemplateRef :=
  if e.name.isEmpty then .error (.missingTemplateName i) else .ok ⟨e.name, e.release⟩

def JobNetwork.ofEntry (i : Nat) (e : JobNetworkEntry) : Except EntryError JobNetwork :=
  if e.name.isEmpty then .error (.missingNetworkName i)
  else .ok ⟨e.name, e.default.map (⟨·⟩), e.staticIps⟩

def Network.ofEntry (e : NetworkEntry) : Except EntryError Network := do
  let cloudProperties ← propertyBlock .cloudProperties e.cloudProperties
  return {
    name := e.name
    type := ⟨e.type⟩
    ip := e.ip
    netmask := e.netmask
    gateway := e.gateway
    dns := e.dns
    cloudProperties }

def ResourcePool.ofEntry (e : ResourcePoolEntry) : Except EntryError ResourcePool := do
  let cloudProperties ← propertyBlock .cloudProperties e.cloudProperties
  let env ← propertyBlock .env e.env
  return { name := e.name, network := e.network, cloudProperties, env }

def DiskPool.ofEntry (e : DiskPoolEntry) : Except EntryError DiskPool := do
  let cloudProperties ← propertyBlock .cloudProperties e.cloudProperties
  return { name := e.name, diskSize := e.diskSize, cloudProperties }

/-- A job, once its templates, its networks and its properties are checked in this order. An empty
lifecycle or disk pool counts as none. -/
def Job.ofEntry (e : JobEntry) : Except EntryError Job := do
  let templates ← readEach TemplateRef.ofEntry 0 e.templates
  let networks ← readEach JobNetwork.ofEntry 0 e.networks
  let properties ← propertyBlock .properties e.properties
  return {
    name := e.name
    instances := e.instances
    lifecycle := ((e.lifecycle.filter (· ≠ "")).map (⟨·⟩)).getD .service
    templates
    networks
    persistentDisk := e.persistentDisk
    persistentDiskPool := e.persistentDiskPool.filter (· ≠ "")
    properties }

def parseEntry {ρ α : Type} (part : Section) (decode : Value → Except Mismatch ρ)
    (build : ρ → Except EntryError α) (i : Nat) (entry : Value) : Except SectionError α :=
  (((decode entry).mapError .decode).bind build).mapError
    (⟨part, ⟨i, entryName entry⟩, ·⟩)

def parseNetworks (entries : List Value) : Except SectionError (List Network) :=
  readEach (parseEntry .networks NetworkEntry.read Network.ofEntry) 0 entries

def parseResourcePools (entries : List Value) : Except SectionError (List ResourcePool) :=
  readEach (parseEntry .resourcePools ResourcePoolEntry.read ResourcePool.ofEntry) 0 entries

def parseDiskPools (entries : List Value) : Except SectionError (List DiskPool) :=
  readEach (parseEntry .diskPools DiskPoolEntry.read DiskPool.ofEntry) 0 entries

def parseJobs (entries : List Value) : Except SectionError (List Job) :=
  readEach (parseEntry .jobs JobEntry.read Job.ofEntry) 0 entries

end Deployment
