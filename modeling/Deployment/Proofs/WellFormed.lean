import Deployment.Proofs.Blocks
import Deployment.Proofs.WatchTimes

namespace Deployment

open Yaml (Value Mismatch)
open Outcome

namespace Property

/-- Whether a part of a tree is in canonical form: no two properties of a map share a name, and an
unsigned integer is one that a signed word does not hold. -/
def Canonical : Property → Prop
  | .map m => (PropertyMap.keys m).Nodup
  | .uint n => Int64.maxValue.toInt < n.toNat
  | _ => True

private theorem canonical_ofNumber (n : Yaml.Number) : (ofNumber n).Canonical := by
  cases n with
  | float f => trivial
  | whole n =>
    obtain ⟨val, lower, upper⟩ := n
    simp only [ofNumber]
    split
    · trivial
    · rename_i large
      have back : (UInt64.ofNat val.toNat).toNat = val.toNat :=
        UInt64.toNat_ofNat_of_lt' (by simp only [UInt64.size]; omega)
      have greatest : Int64.maxValue.toInt = 0x7fffffffffffffff := by decide
      rw [Canonical, back, greatest]
      omega

theorem canonical_ofValue {l : Location} {v : Value} {p : Property}
    (success : ofValue l v = .ok p) : p.Canonical := by
  cases v with
  | number n =>
    cases success
    exact canonical_ofNumber n
  | sequence items =>
    obtain ⟨ps, _, rfl⟩ := map_eq_ok.mp success
    trivial
  | mapping es =>
    obtain ⟨m, built, rfl⟩ := map_eq_ok.mp success
    exact (ofEntries_ok built).2.1
  | tagged tag v => cases success
  | _ =>
    cases success
    trivial

end Property

theorem Builds.canonical {v : Value} {m : PropertyMap} (built : Builds v m) :
    ∀ p ∈ (Property.map m).parts, p.Canonical := by
  rcases PropertyMap.build_ok built with ⟨_, rfl⟩ | success
  · simp [Property.parts, Property.partsOfEntries, Property.Canonical, PropertyMap.keys]
  · intro p part
    obtain ⟨w, _, l, made⟩ := related_left (Property.parts_ofValue success) p part
    exact Property.canonical_ofValue made

/-- Whether the things made of the entries are as many as these, in their order, and have the names
that the entries give themselves. -/
def KeepsNames {ρ α : Type} (read : Value → Except Mismatch ρ) (written : ρ → String)
    (name : α → String) : List Value → List α → Prop :=
  List.Forall₂ fun entry x => ∃ e, read entry = .ok e ∧ name x = written e

/-- Whether nothing about a job is empty that must not be. -/
structure Job.WellFormed (j : Job) : Prop where
  templates : ∀ t ∈ j.templates, t.name ≠ ""
  networks : ∀ n ∈ j.networks, n.name ≠ ""
  lifecycle : j.lifecycle.text ≠ ""
  persistentDiskPool : j.persistentDiskPool ≠ some ""

/-- Whether a manifest is what the decoded document may become: it has a name, its watch time is an
interval, the entries of its sections are all there, and its jobs and property trees are sound. -/
structure Manifest.WellFormed (e : ManifestEntry) (m : Manifest) : Prop where
  name : ¬ Text.Trimmed m.name.toList []
  watchTime : m.watchTime.start ≤ m.watchTime.stop
  networks : KeepsNames NetworkEntry.read (·.name) (·.name) e.networks m.networks
  resourcePools :
    KeepsNames ResourcePoolEntry.read (·.name) (·.name) e.resourcePools m.resourcePools
  diskPools : KeepsNames DiskPoolEntry.read (·.name) (·.name) e.diskPools m.diskPools
  jobs : KeepsNames JobEntry.read (·.name) (·.name) e.jobs m.jobs
  eachJob : ∀ j ∈ m.jobs, j.WellFormed
  eachPart : ∀ p ∈ m.parts, p.Canonical

private theorem template_named {i : Nat} {e : TemplateEntry} {t : TemplateRef}
    (success : TemplateRef.ofEntry i e = .ok t) : t.name ≠ "" := by
  simp only [TemplateRef.ofEntry] at success
  split at success
  · cases success
  · rename_i named
    cases success
    simpa using named

private theorem attachment_named {i : Nat} {e : JobNetworkEntry} {n : JobNetwork}
    (success : JobNetwork.ofEntry i e = .ok n) : n.name ≠ "" := by
  simp only [JobNetwork.ofEntry] at success
  split at success
  · cases success
  · rename_i named
    cases success
    simpa using named

private theorem lifecycle_nonempty (written : Option String) :
    (((written.filter (· ≠ "")).map (⟨·⟩)).getD JobLifecycle.service).text ≠ "" := by
  cases kept : written.filter (· ≠ "") with
  | none => simp [JobLifecycle.service]
  | some s =>
    have nonempty := (Option.filter_eq_some_iff.mp kept).2
    simpa using nonempty

theorem Job.wellFormed_ofEntry {e : JobEntry} {j : Job} (success : Job.ofEntry e = .ok j) :
    j.WellFormed := by
  obtain ⟨templates, networks, _, readTemplates, readNetworks, _, rfl⟩ := Job.ofEntry_ok success
  constructor
  · intro t member
    obtain ⟨_, _, i, made⟩ := related_left (readEach_ok readTemplates) t member
    exact template_named made
  · intro n member
    obtain ⟨_, _, i, made⟩ := related_left (readEach_ok readNetworks) n member
    exact attachment_named made
  · exact lifecycle_nonempty e.lifecycle
  · simp [Option.filter_eq_some_iff]

private theorem keepsNames_of_section {ρ α : Type} {part : Section}
    {decode : Value → Except Mismatch ρ} {build : ρ → Except EntryError α} {written : ρ → String}
    {name : α → String} {entries : List Value} {xs : List α}
    (keeps : ∀ e x, build e = .ok x → name x = written e)
    (success : readEach (parseEntry part decode build) 0 entries = .ok xs) :
    KeepsNames decode written name entries xs :=
  (section_ok success).imp fun _ x ⟨e, decoded, made⟩ => ⟨e, decoded, keeps e x made⟩

private theorem network_name (e : NetworkEntry) (n : Network)
    (success : Network.ofEntry e = .ok n) : n.name = e.name := by
  obtain ⟨_, _, rfl⟩ := Network.ofEntry_ok success
  rfl

private theorem resourcePool_name (e : ResourcePoolEntry) (p : ResourcePool)
    (success : ResourcePool.ofEntry e = .ok p) : p.name = e.name := by
  obtain ⟨_, _, _, _, rfl⟩ := ResourcePool.ofEntry_ok success
  rfl

private theorem diskPool_name (e : DiskPoolEntry) (p : DiskPool)
    (success : DiskPool.ofEntry e = .ok p) : p.name = e.name := by
  obtain ⟨_, _, rfl⟩ := DiskPool.ofEntry_ok success
  rfl

private theorem job_name (e : JobEntry) (j : Job) (success : Job.ofEntry e = .ok j) :
    j.name = e.name := by
  obtain ⟨_, _, _, _, _, _, rfl⟩ := Job.ofEntry_ok success
  rfl

namespace Manifest

private theorem watchTimeOf_ordered {e : UpdateEntry} {w : WatchTime}
    (success : watchTimeOf e = .ok w) : w.start ≤ w.stop := by
  simp only [watchTimeOf] at success
  split at success
  · exact WatchTime.parse_ordered success
  · cases success
    decide

theorem Built.wellFormed {v : Value} {e : ManifestEntry} {m : Manifest}
    (read : ManifestEntry.read v = .ok e) (built : Built e m) : WellFormed e m := by
  constructor
  · rw [built.name, Text.trimmed_empty_iff]
    exact built.nonblank
  · exact watchTimeOf_ordered built.watchTime
  · exact keepsNames_of_section network_name built.networks
  · exact keepsNames_of_section resourcePool_name built.resourcePools
  · exact keepsNames_of_section diskPool_name built.diskPools
  · exact keepsNames_of_section job_name built.jobs
  · intro j member
    obtain ⟨_, _, e, _, made⟩ := related_left (section_ok built.jobs) j member
    exact Job.wellFormed_ofEntry made
  · intro p member
    obtain ⟨block, within, part⟩ := List.mem_flatMap.mp member
    obtain ⟨_, _, builds⟩ := related_left (built.blocks read) block within
    exact builds.canonical p part

/-- Whatever is parsed is well formed as a whole. -/
theorem parse_wellFormed {origin : String} {octets : List UInt8} {m : Manifest}
    (success : (parse origin (.ok octets)).2 = .ok m) :
    ∃ e, (decode origin octets).2 = .ok e ∧ WellFormed e m := by
  obtain ⟨e, decoded, made⟩ := parse_ok_iff.mp success
  have built := ofEntry_ok made
  refine ⟨e, decoded, ?_⟩
  rcases decode_ok decoded with rfl | ⟨_, _, _, _, read⟩
  · exact absurd rfl built.nonblank
  · exact built.wellFormed read

/-- A manifest with an entry in each section, an empty lifecycle and an integer that only an
unsigned word holds. -/
theorem parse_wellFormed_sections :
    let lines := ["name: d", "networks:", "- name: n", "resource_pools:", "- name: r",
      "  env:", "    a: 1", "disk_pools:", "- name: p", "jobs:", "- name: j",
      "  lifecycle: \"\"", "  templates:", "  - name: t", "  networks:", "  - name: n",
      "  properties:", "    1: 9223372036854775808"]
    let octets := ("\n".intercalate lines).toList.map fun c => UInt8.ofNat c.toNat
    ∃ m, (parse "d" (.ok octets)).2 = .ok m ∧
      ∃ e, (decode "d" octets).2 = .ok e ∧ WellFormed e m := by
  intro lines octets
  have parsed : (parse "d" (.ok octets)).2.isOk = true := by decide +kernel
  cases success : (parse "d" (.ok octets)).2 with
  | error e =>
    rw [success] at parsed
    cases parsed
  | ok m => exact ⟨m, rfl, parse_wellFormed success⟩

end Manifest

end Deployment
