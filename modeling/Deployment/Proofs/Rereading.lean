import Deployment.Proofs.MergeFree
import Deployment.Proofs.Records
import Deployment.Proofs.WatchTimes
import Deployment.Property.Merge

namespace Deployment

open Yaml (Value Mismatch)
open Yaml.Shape (record_inOrder readInOrder entriesInOrder natural natural_ofUInt64 withDefault
  list_written anything)
open Outcome
open Property (optional_ofText? list_ofTexts toYaml_list_map)

theorem propertyBlock_toYaml {m : PropertyMap} (normal : (Property.map m).Normal) (block : Block) :
    propertyBlock block (Property.map m).toYaml = .ok m :=
  propertyBlock_ok.mpr (PropertyMap.build_toYaml normal)

theorem withDefault_natural (n : UInt64) :
    withDefault 0 natural (Property.uint n).toYaml = .ok n := by
  have read := natural_ofUInt64 n
  rw [Property.toYaml, withDefault, Yaml.Shape.optional, read]
  · rfl
  · simp

section Entries

/-- A network as it is written. -/
def Network.entry (n : Network) : NetworkEntry where
  name := n.name
  type := n.type.text
  ip := n.ip
  netmask := n.netmask
  gateway := n.gateway
  dns := n.dns
  cloudProperties := (Property.map n.cloudProperties).toYaml

def ResourcePool.entry (p : ResourcePool) : ResourcePoolEntry where
  name := p.name
  network := p.network
  cloudProperties := (Property.map p.cloudProperties).toYaml
  env := (Property.map p.env).toYaml

def DiskPool.entry (p : DiskPool) : DiskPoolEntry where
  name := p.name
  diskSize := p.diskSize
  cloudProperties := (Property.map p.cloudProperties).toYaml

def TemplateRef.entry (t : TemplateRef) : TemplateEntry where
  name := t.name
  release := t.release

def JobNetwork.entry (n : JobNetwork) : JobNetworkEntry where
  name := n.name
  default := n.default.map (·.text)
  staticIps := n.staticIps

def Job.entry (j : Job) : JobEntry where
  name := j.name
  instances := j.instances
  lifecycle := some j.lifecycle.text
  templates := j.templates.map (·.entry)
  networks := j.networks.map (·.entry)
  persistentDisk := j.persistentDisk
  persistentDiskPool := j.persistentDiskPool
  properties := (Property.map j.properties).toYaml

end Entries

section Reading

theorem Network.read_toYaml (n : Network) :
    NetworkEntry.read n.toProperty.toYaml = .ok n.entry := by
  have written : n.toProperty.toYaml = .mapping (entriesInOrder NetworkEntry.fields
      [.string n.name, .string n.type.text, (Property.ofText? n.ip).toYaml,
        (Property.ofText? n.netmask).toYaml, (Property.ofText? n.gateway).toYaml,
        (Property.ofTexts n.dns).toYaml, (Property.map n.cloudProperties).toYaml]) := rfl
  rw [written, NetworkEntry.read, record_inOrder (by decide)]
  simp only [NetworkEntry.fields, readInOrder, optional_ofText?, list_ofTexts]
  rfl

theorem ResourcePool.read_toYaml (p : ResourcePool) :
    ResourcePoolEntry.read p.toProperty.toYaml = .ok p.entry := by
  have written : p.toProperty.toYaml = .mapping (entriesInOrder ResourcePoolEntry.fields
      [.string p.name, .string p.network, (Property.map p.cloudProperties).toYaml,
        (Property.map p.env).toYaml]) := rfl
  rw [written, ResourcePoolEntry.read, record_inOrder (by decide)]
  rfl

theorem DiskPool.read_toYaml (p : DiskPool) :
    DiskPoolEntry.read p.toProperty.toYaml = .ok p.entry := by
  have written : p.toProperty.toYaml = .mapping (entriesInOrder DiskPoolEntry.fields
      [.string p.name, (Property.uint p.diskSize).toYaml,
        (Property.map p.cloudProperties).toYaml]) := rfl
  rw [written, DiskPoolEntry.read, record_inOrder (by decide)]
  simp only [DiskPoolEntry.fields, readInOrder, withDefault_natural]
  rfl

theorem TemplateRef.read_toYaml (t : TemplateRef) :
    TemplateEntry.read t.toProperty.toYaml = .ok t.entry := by
  have written : t.toProperty.toYaml = .mapping (entriesInOrder TemplateEntry.fields
      [.string t.name, .string t.release]) := rfl
  rw [written, TemplateEntry.read, record_inOrder (by decide)]
  rfl

theorem JobNetwork.read_toYaml (n : JobNetwork) :
    JobNetworkEntry.read n.toProperty.toYaml = .ok n.entry := by
  have written : n.toProperty.toYaml = .mapping (entriesInOrder JobNetworkEntry.fields
      [.string n.name, (Property.ofTexts (n.default.map (·.text))).toYaml,
        (Property.ofTexts n.staticIps).toYaml]) := rfl
  rw [written, JobNetworkEntry.read, record_inOrder (by decide)]
  simp only [JobNetworkEntry.fields, readInOrder, list_ofTexts]
  rfl

theorem Job.read_toYaml (j : Job) : JobEntry.read j.toProperty.toYaml = .ok j.entry := by
  have written : j.toProperty.toYaml = .mapping (entriesInOrder JobEntry.fields
      [.string j.name, (Property.uint j.instances).toYaml, .string j.lifecycle.text,
        (Property.list (j.templates.map (·.toProperty))).toYaml,
        (Property.list (j.networks.map (·.toProperty))).toYaml,
        (Property.uint j.persistentDisk).toYaml, (Property.ofText? j.persistentDiskPool).toYaml,
        (Property.map j.properties).toYaml]) := rfl
  have templates : withDefault [] (Yaml.Shape.list TemplateEntry.read)
      (.sequence (j.templates.map (·.toProperty.toYaml))) = .ok (j.templates.map (·.entry)) := by
    apply list_written
    intro t _
    exact t.read_toYaml
  have networks : withDefault [] (Yaml.Shape.list JobNetworkEntry.read)
      (.sequence (j.networks.map (·.toProperty.toYaml))) = .ok (j.networks.map (·.entry)) := by
    apply list_written
    intro n _
    exact n.read_toYaml
  rw [written, JobEntry.read, record_inOrder (by decide)]
  simp only [JobEntry.fields, readInOrder, optional_ofText?, withDefault_natural, toYaml_list_map,
    templates, networks]
  rfl

end Reading

section Making

theorem Network.ofEntry_entry {n : Network} (normal : (Property.map n.cloudProperties).Normal) :
    ofEntry n.entry = .ok n := by
  have block := propertyBlock_toYaml normal .cloudProperties
  simp only [ofEntry, entry, block]
  rfl

theorem ResourcePool.ofEntry_entry {p : ResourcePool}
    (cloud : (Property.map p.cloudProperties).Normal) (env : (Property.map p.env).Normal) :
    ofEntry p.entry = .ok p := by
  have cloudBlock := propertyBlock_toYaml cloud .cloudProperties
  have envBlock := propertyBlock_toYaml env .env
  simp only [ofEntry, entry, cloudBlock, envBlock]
  rfl

theorem DiskPool.ofEntry_entry {p : DiskPool} (normal : (Property.map p.cloudProperties).Normal) :
    ofEntry p.entry = .ok p := by
  have block := propertyBlock_toYaml normal .cloudProperties
  simp only [ofEntry, entry, block]
  rfl

theorem TemplateRef.ofEntry_entry {t : TemplateRef} (named : t.name ≠ "") (i : Nat) :
    ofEntry i t.entry = .ok t := by
  have present : t.name.isEmpty = false := by simpa using named
  simp only [ofEntry, entry, present]
  rfl

theorem JobNetwork.ofEntry_entry {n : JobNetwork} (named : n.name ≠ "") (i : Nat) :
    ofEntry i n.entry = .ok n := by
  have present : n.name.isEmpty = false := by simpa using named
  have roles : (n.default.map (·.text)).map (⟨·⟩ : String → NetworkDefault) = n.default := by
    rw [List.map_map]
    exact List.map_id _
  simp only [ofEntry, entry, present, roles]
  rfl

theorem Job.ofEntry_entry {j : Job} (sound : j.WellFormed)
    (normal : (Property.map j.properties).Normal) : ofEntry j.entry = .ok j := by
  have block := propertyBlock_toYaml normal .properties
  have templates :
      readEach TemplateRef.ofEntry 0 (j.templates.map (·.entry)) = .ok j.templates := by
    apply readEach_written
    intro t member
    exact TemplateRef.ofEntry_entry (sound.templates t member)
  have networks : readEach JobNetwork.ofEntry 0 (j.networks.map (·.entry)) = .ok j.networks := by
    apply readEach_written
    intro n member
    exact JobNetwork.ofEntry_entry (sound.networks n member)
  have lifecycle : (some j.lifecycle.text).filter (· ≠ "") = some j.lifecycle.text := by
    simp [sound.lifecycle]
  have pool : j.persistentDiskPool.filter (· ≠ "") = j.persistentDiskPool := by
    cases present : j.persistentDiskPool with
    | none => rfl
    | some name =>
      have nonempty : name ≠ "" := by
        rintro rfl
        exact sound.persistentDiskPool present
      simp [nonempty]
  simp only [ofEntry, entry, block, templates, networks, lifecycle, pool]
  rfl

end Making

open Property (mergeFree_list_map mergeFree_map)

theorem Network.mergeFree {n : Network} (free : (Property.map n.cloudProperties).MergeFree) :
    n.toProperty.MergeFree := by
  refine mergeFree_map.mpr ⟨by simp [PropertyMap.keys], ?_⟩
  simp [free]

theorem ResourcePool.mergeFree {p : ResourcePool}
    (cloud : (Property.map p.cloudProperties).MergeFree) (env : (Property.map p.env).MergeFree) :
    p.toProperty.MergeFree := by
  refine mergeFree_map.mpr ⟨by simp [PropertyMap.keys], ?_⟩
  simp [cloud, env]

theorem DiskPool.mergeFree {p : DiskPool} (free : (Property.map p.cloudProperties).MergeFree) :
    p.toProperty.MergeFree := by
  refine mergeFree_map.mpr ⟨by simp [PropertyMap.keys], ?_⟩
  simp [free]

theorem TemplateRef.mergeFree (t : TemplateRef) : t.toProperty.MergeFree := by
  refine mergeFree_map.mpr ⟨by simp [PropertyMap.keys], ?_⟩
  simp

theorem JobNetwork.mergeFree (n : JobNetwork) : n.toProperty.MergeFree := by
  refine mergeFree_map.mpr ⟨by simp [PropertyMap.keys], ?_⟩
  simp

theorem Job.mergeFree {j : Job} (free : (Property.map j.properties).MergeFree) :
    j.toProperty.MergeFree := by
  have templates := mergeFree_list_map fun t (_ : t ∈ j.templates) => t.mergeFree
  have networks := mergeFree_list_map fun n (_ : n ∈ j.networks) => n.mergeFree
  refine mergeFree_map.mpr ⟨by simp [PropertyMap.keys], ?_⟩
  simp [templates, networks, free]

/-- The entities of a section are read again when each one is read and made from what it is
written as. -/
theorem section_written {ρ α : Type} {part : Section} {decode : Value → Except Mismatch ρ}
    {build : ρ → Except EntryError α} {write : α → Value} {entry : α → ρ} {xs : List α}
    (read : ∀ x, decode (write x) = .ok (entry x)) (made : ∀ x ∈ xs, build (entry x) = .ok x) :
    readEach (parseEntry part decode build) 0 (xs.map write) = .ok xs := by
  apply readEach_written
  intro x member i
  exact parseEntry_ok.mpr ⟨entry x, read x, made x member⟩

namespace Manifest

/-- The tree of a manifest with the text of the watch time in the place of its bounds. -/
def timedText (m : Manifest) : Property :=
  Property.over (some m.toProperty)
    (.map [("update", .map [("update_watch_time", .string m.watchTime.text)])])

/-- The value of the document that a manifest is written as. -/
def document (m : Manifest) : Value :=
  m.timedText.toYaml

def entry (m : Manifest) : ManifestEntry where
  name := m.name
  update := ⟨some (.string m.watchTime.text)⟩
  networks := m.networks.map (·.toProperty.toYaml)
  resourcePools := m.resourcePools.map (·.toProperty.toYaml)
  diskPools := m.diskPools.map (·.toProperty.toYaml)
  jobs := m.jobs.map (·.toProperty.toYaml)
  properties := (Property.map m.properties).toYaml

theorem timedText_eq (m : Manifest) : m.timedText = .map [
    ("name", .string m.name),
    ("update", .map [("update_watch_time", .string m.watchTime.text)]),
    ("networks", .list (m.networks.map (·.toProperty))),
    ("resource_pools", .list (m.resourcePools.map (·.toProperty))),
    ("disk_pools", .list (m.diskPools.map (·.toProperty))),
    ("jobs", .list (m.jobs.map (·.toProperty))),
    ("properties", .map m.properties)] := by
  rfl

theorem read_document (m : Manifest) : ManifestEntry.read m.document = .ok m.entry := by
  have written : m.document = .mapping (entriesInOrder ManifestEntry.fields
      [.string m.name, .mapping [(.string "update_watch_time", .string m.watchTime.text)],
        (Property.list (m.networks.map (·.toProperty))).toYaml,
        (Property.list (m.resourcePools.map (·.toProperty))).toYaml,
        (Property.list (m.diskPools.map (·.toProperty))).toYaml,
        (Property.list (m.jobs.map (·.toProperty))).toYaml,
        (Property.map m.properties).toYaml]) := by
    rw [document, timedText_eq]
    rfl
  have kept {α : Type} (write : α → Value) (xs : List α) :
      withDefault [] (Yaml.Shape.list anything) (.sequence (xs.map write)) = .ok (xs.map write) :=
    list_written fun _ _ => rfl
  rw [written, ManifestEntry.read, record_inOrder (by decide)]
  simp only [ManifestEntry.fields, readInOrder, toYaml_list_map, kept]
  rfl

theorem ofEntry_entry {m : Manifest} {e : ManifestEntry} (sound : WellFormed e m) :
    ofEntry m.entry = .ok m := by
  have normal : ∀ b ∈ m.blocks, (Property.map b).Normal := by
    intro b block p part
    exact sound.eachPart p (List.mem_flatMap.mpr ⟨b, block, part⟩)
  obtain ⟨globals, ofNetworks, ofPools, ofDisks, ofJobs⟩ := forall_blocks.mp normal
  have networks : parseNetworks m.entry.networks = .ok m.networks := by
    apply section_written Network.read_toYaml
    intro n member
    exact Network.ofEntry_entry (ofNetworks n member)
  have resourcePools : parseResourcePools m.entry.resourcePools = .ok m.resourcePools := by
    apply section_written ResourcePool.read_toYaml
    intro p member
    obtain ⟨cloud, env⟩ := ofPools p member
    exact ResourcePool.ofEntry_entry cloud env
  have diskPools : parseDiskPools m.entry.diskPools = .ok m.diskPools := by
    apply section_written DiskPool.read_toYaml
    intro p member
    exact DiskPool.ofEntry_entry (ofDisks p member)
  have jobs : parseJobs m.entry.jobs = .ok m.jobs := by
    apply section_written Job.read_toYaml
    intro j member
    exact Job.ofEntry_entry (sound.eachJob j member) (ofJobs j member)
  have properties : PropertyMap.build m.entry.properties = .ok m.properties :=
    PropertyMap.build_toYaml globals
  -- The watch time is written with both bounds, which are in order because it was parsed.
  have watchTime : watchTimeOf m.entry.update = .ok m.watchTime :=
    WatchTime.parse_text sound.watchTime
  have named : ¬ Text.trimString m.entry.name = "" := mt Text.trimmed_empty_iff.mpr sound.name
  simp only [ofEntry, if_neg named, networks, resourcePools, diskPools, jobs, properties,
    watchTime]
  rfl

theorem mergeFree_timedText {m : Manifest} (free : ∀ b ∈ m.blocks, (Property.map b).MergeFree) :
    m.timedText.MergeFree := by
  obtain ⟨globals, ofNetworks, ofPools, ofDisks, ofJobs⟩ := forall_blocks.mp free
  have networks := mergeFree_list_map fun n member => Network.mergeFree (ofNetworks n member)
  have resourcePools := mergeFree_list_map fun p member =>
    ResourcePool.mergeFree (ofPools p member).1 (ofPools p member).2
  have diskPools := mergeFree_list_map fun p member => DiskPool.mergeFree (ofDisks p member)
  have jobs := mergeFree_list_map fun j member => Job.mergeFree (ofJobs j member)
  have update : (Property.map [("update_watch_time", .string m.watchTime.text)]).MergeFree :=
    mergeFree_map.mpr (by simp [PropertyMap.keys])
  rw [timedText_eq]
  refine mergeFree_map.mpr ⟨by simp [PropertyMap.keys], ?_⟩
  simp [update, networks, resourcePools, diskPools, jobs, globals]

theorem exists_wellFormed {origin : String} {octets : List UInt8} {m : Manifest}
    (success : (parse origin (.ok octets)).2 = .ok m) : ∃ e, WellFormed e m := by
  obtain ⟨e, decoded, made⟩ := parse_ok_iff.mp success
  have built := ofEntry_ok made
  refine ⟨e, ?_⟩
  rcases decode_ok decoded with rfl | ⟨_, _, _, _, read⟩
  · exact absurd rfl built.nonblank
  · exact built.wellFormed read

/-- Whatever has been parsed, with no merge key left in its properties, is parsed again from the
document that it is written as. -/
theorem document_rereads {origin : String} {octets : List UInt8} {m : Manifest}
    (success : (parse origin (.ok octets)).2 = .ok m)
    (free : ∀ b ∈ m.blocks, (Property.map b).MergeFree) :
    ∃ resolved e, Yaml.MergeKey.resolve m.document = .ok resolved ∧
      ManifestEntry.read resolved = .ok e ∧ ofEntry e = .ok m := by
  obtain ⟨e, sound⟩ := exists_wellFormed success
  have resolved := Property.resolves_toYaml (mergeFree_timedText free)
  exact ⟨m.document, m.entry, resolved, read_document m, ofEntry_entry sound⟩

/-- A manifest with a watch time of one bound, an absent and an empty field, and properties that are
wide, not a number, and adopted through a merge key. -/
theorem document_rereads_adopted :
    let lines := ["name: ' d'", "update: \x7bupdate_watch_time: 5\x7d", "networks:", "- ip: ''",
      "jobs:", "- lifecycle: ''", "  networks: [\x7bname: n, default: [dns]\x7d]",
      "  properties: \x7b<<: \x7b1: .nan\x7d, a: 9223372036854775808\x7d"]
    let octets := ("\n".intercalate lines).toList.map fun c => UInt8.ofNat c.toNat
    ∃ m, (parse "d" (.ok octets)).2 = .ok m ∧ (∀ b ∈ m.blocks, (Property.map b).MergeFree) ∧
      ∃ resolved e, Yaml.MergeKey.resolve m.document = .ok resolved ∧
        ManifestEntry.read resolved = .ok e ∧ ofEntry e = .ok m := by
  intro lines octets
  have parsed : ((parse "d" (.ok octets)).2.toOption.any fun m => m.parts.all fun p =>
      p.asMap?.all fun es => !(PropertyMap.keys es).contains "<<") = true := by
    decide +kernel
  cases success : (parse "d" (.ok octets)).2 with
  | error e =>
    rw [success] at parsed
    cases parsed
  | ok m =>
    rw [success] at parsed
    have free : ∀ b ∈ m.blocks, (Property.map b).MergeFree := by
      rintro b block p part es rfl
      have each := List.all_eq_true.mp parsed _ (List.mem_flatMap.mpr ⟨b, block, part⟩)
      simpa [Property.asMap?] using each
    exact ⟨m, rfl, free, document_rereads success free⟩

end Manifest

end Deployment
