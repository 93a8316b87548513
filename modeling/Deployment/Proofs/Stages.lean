import Deployment.Manifest.Parse
import Deployment.Proofs.Outcome
import Mathlib.Data.List.Forall2

namespace Deployment

open Yaml (Value Mismatch)
open Outcome

theorem readEach_ok {α β ε : Type} {read : Nat → α → Except ε β} {i : Nat} {xs : List α}
    {ys : List β} (success : readEach read i xs = .ok ys) :
    List.Forall₂ (fun x y => ∃ i, read i x = .ok y) xs ys := by
  induction xs generalizing i ys with
  | nil =>
    cases success
    exact .nil
  | cons x rest ih =>
    simp only [readEach, bind_eq_ok, pure, Except.pure, Except.ok.injEq] at success
    obtain ⟨y, head, zs, tail, rfl⟩ := success
    exact .cons ⟨i, head⟩ (ih tail)

theorem parseEntry_ok {ρ α : Type} {part : Section} {decode : Value → Except Mismatch ρ}
    {build : ρ → Except EntryError α} {i : Nat} {entry : Value} {x : α} :
    parseEntry part decode build i entry = .ok x ↔ ∃ e, decode entry = .ok e ∧ build e = .ok x := by
  rw [parseEntry, mapError_eq_ok]
  exact bind_eq_ok.trans (by simp only [mapError_eq_ok])

theorem section_ok {ρ α : Type} {part : Section} {decode : Value → Except Mismatch ρ}
    {build : ρ → Except EntryError α} {entries : List Value} {xs : List α}
    (success : readEach (parseEntry part decode build) 0 entries = .ok xs) :
    List.Forall₂ (fun entry x => ∃ e, decode entry = .ok e ∧ build e = .ok x) entries xs :=
  (readEach_ok success).imp fun _ _ ⟨_, parsed⟩ => parseEntry_ok.mp parsed

theorem propertyBlock_ok {block : Block} {v : Value} {m : PropertyMap} :
    propertyBlock block v = .ok m ↔ PropertyMap.build v = .ok m :=
  mapError_eq_ok

theorem Network.ofEntry_ok {e : NetworkEntry} {n : Network} (success : ofEntry e = .ok n) :
    ∃ cloudProperties, PropertyMap.build e.cloudProperties = .ok cloudProperties ∧
      n = { name := e.name, type := ⟨e.type⟩, ip := e.ip, netmask := e.netmask,
            gateway := e.gateway, dns := e.dns, cloudProperties } := by
  simp only [ofEntry, bind_eq_ok, propertyBlock_ok, pure, Except.pure, Except.ok.injEq] at success
  obtain ⟨cloudProperties, built, rfl⟩ := success
  exact ⟨cloudProperties, built, rfl⟩

theorem ResourcePool.ofEntry_ok {e : ResourcePoolEntry} {p : ResourcePool}
    (success : ofEntry e = .ok p) :
    ∃ cloudProperties env, PropertyMap.build e.cloudProperties = .ok cloudProperties ∧
      PropertyMap.build e.env = .ok env ∧
      p = { name := e.name, network := e.network, cloudProperties, env } := by
  simp only [ofEntry, bind_eq_ok, propertyBlock_ok, pure, Except.pure, Except.ok.injEq] at success
  obtain ⟨cloudProperties, builtCloud, env, builtEnv, rfl⟩ := success
  exact ⟨cloudProperties, env, builtCloud, builtEnv, rfl⟩

theorem DiskPool.ofEntry_ok {e : DiskPoolEntry} {p : DiskPool} (success : ofEntry e = .ok p) :
    ∃ cloudProperties, PropertyMap.build e.cloudProperties = .ok cloudProperties ∧
      p = { name := e.name, diskSize := e.diskSize, cloudProperties } := by
  simp only [ofEntry, bind_eq_ok, propertyBlock_ok, pure, Except.pure, Except.ok.injEq] at success
  obtain ⟨cloudProperties, built, rfl⟩ := success
  exact ⟨cloudProperties, built, rfl⟩

theorem Job.ofEntry_ok {e : JobEntry} {j : Job} (success : ofEntry e = .ok j) :
    ∃ templates networks properties,
      readEach TemplateRef.ofEntry 0 e.templates = .ok templates ∧
      readEach JobNetwork.ofEntry 0 e.networks = .ok networks ∧
      PropertyMap.build e.properties = .ok properties ∧
      j = { name := e.name, instances := e.instances,
            lifecycle := ((e.lifecycle.filter (· ≠ "")).map (⟨·⟩)).getD .service,
            templates, networks, persistentDisk := e.persistentDisk,
            persistentDiskPool := e.persistentDiskPool.filter (· ≠ ""), properties } := by
  simp only [ofEntry, bind_eq_ok, propertyBlock_ok, pure, Except.pure, Except.ok.injEq] at success
  obtain ⟨templates, readTemplates, networks, readNetworks, properties, built, rfl⟩ := success
  exact ⟨templates, networks, properties, readTemplates, readNetworks, built, rfl⟩

namespace Manifest

/-- What the steps from the entries of a manifest to the manifest gave. -/
structure Built (e : ManifestEntry) (m : Manifest) : Prop where
  nonblank : Text.trimString e.name ≠ ""
  name : m.name = e.name
  networks : parseNetworks e.networks = .ok m.networks
  resourcePools : parseResourcePools e.resourcePools = .ok m.resourcePools
  diskPools : parseDiskPools e.diskPools = .ok m.diskPools
  jobs : parseJobs e.jobs = .ok m.jobs
  properties : PropertyMap.build e.properties = .ok m.properties
  watchTime : watchTimeOf e.update = .ok m.watchTime

theorem ofEntry_ok {e : ManifestEntry} {m : Manifest} (success : ofEntry e = .ok m) :
    Built e m := by
  unfold ofEntry at success
  by_cases blank : Text.trimString e.name = ""
  · rw [if_pos blank] at success
    cases success
  · rw [if_neg blank] at success
    simp only [bind_eq_ok, mapError_eq_ok, pure, Except.pure, Except.ok.injEq] at success
    obtain ⟨networks, parsedNetworks, pools, parsedPools, disks, parsedDisks, jobs, parsedJobs,
      properties, built, watchTime, read, rfl⟩ := success
    exact ⟨blank, rfl, parsedNetworks, parsedPools, parsedDisks, parsedJobs, built, read⟩

theorem parse_octets (origin : String) (octets : List UInt8) :
    (parse origin (.ok octets)).2 =
      ((decode origin octets).2 >>= ofEntry).mapError (ManifestError.mk origin) := by
  simp only [parse]
  cases decoded : (decode origin octets).2 with
  | error fault => rfl
  | ok e =>
    simp only [bind, Except.bind]
    cases ofEntry e with
    | error fault => rfl
    | ok m => rfl

theorem parse_ok_iff {origin : String} {octets : List UInt8} {m : Manifest} :
    (parse origin (.ok octets)).2 = .ok m ↔
      ∃ e, (decode origin octets).2 = .ok e ∧ ofEntry e = .ok m := by
  rw [parse_octets, mapError_eq_ok, bind_eq_ok]

/-- The entries that the value of a document holds. -/
def entryOf : Value → Except ManifestFault ManifestEntry
  | .null => .ok {}
  | v => (ManifestEntry.read v).mapError fun m => .decode (.shape m)

theorem decode_eq {origin : String} {octets : List UInt8}
    (text : octets.all Text.isBlankOctet = false) :
    (decode origin octets).2 = (documentValue octets).mapError .decode >>= entryOf := by
  rw [decode, text]
  cases documentValue octets with
  | error e => rfl
  | ok v => cases v <;> rfl

theorem entryOf_eq (v : Value) :
    entryOf v = (ManifestEntry.read v).mapError fun m => .decode (.shape m) := by
  cases v <;> rfl

theorem entryOf_error {v : Value} {fault : ManifestFault} (failed : entryOf v = .error fault) :
    ∃ m, fault = .decode (.shape m) := by
  unfold entryOf at failed
  split at failed
  · cases failed
  · cases read : ManifestEntry.read v with
    | error m =>
      rw [read] at failed
      cases failed
      exact ⟨m, rfl⟩
    | ok e =>
      rw [read] at failed
      cases failed

/-- Decoded entries come from the value of the document, unless there is nothing in it. -/
theorem decode_ok {origin : String} {octets : List UInt8} {e : ManifestEntry}
    (success : (decode origin octets).2 = .ok e) :
    e = {} ∨ ∃ document resolved, Value.ofOctets octets = .ok document ∧
      Yaml.MergeKey.resolve document = .ok resolved ∧ ManifestEntry.read resolved = .ok e := by
  simp only [decode] at success
  split at success
  · cases success
    exact .inl rfl
  · split at success
    · cases success
    · rename_i resolved found
      obtain ⟨document, text, merged⟩ := bind_eq_ok.mp found
      rw [mapError_eq_ok] at text merged
      split at success
      · cases success
        exact .inl rfl
      · exact .inr ⟨document, resolved, text, merged, mapError_eq_ok.mp success⟩

end Manifest

end Deployment
