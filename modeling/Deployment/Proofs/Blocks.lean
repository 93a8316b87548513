import Deployment.Proofs.Fields
import Deployment.Proofs.PropertyTree
import Deployment.Proofs.Stages

namespace Deployment

open Yaml (Value)
open Yaml.Shape
open Outcome

def Section.all : List Section :=
  [.networks, .resourcePools, .diskPools, .jobs]

def Section.blocks : Section → List Block
  | .networks => [.cloudProperties]
  | .resourcePools => [.cloudProperties, .env]
  | .diskPools => [.cloudProperties]
  | .jobs => [.properties]

def ManifestEntry.entries (e : ManifestEntry) : Section → List Value
  | .networks => e.networks
  | .resourcePools => e.resourcePools
  | .diskPools => e.diskPools
  | .jobs => e.jobs

def Manifest.entityBlocks (m : Manifest) : Section → List PropertyMap
  | .networks => m.networks.flatMap fun n => [n.cloudProperties]
  | .resourcePools => m.resourcePools.flatMap fun p => [p.cloudProperties, p.env]
  | .diskPools => m.diskPools.flatMap fun p => [p.cloudProperties]
  | .jobs => m.jobs.flatMap fun j => [j.properties]

/-- All property blocks of a manifest: the global one, then those of its entities. -/
def Manifest.blocks (m : Manifest) : List PropertyMap :=
  m.properties :: Section.all.flatMap m.entityBlocks

theorem Manifest.forall_blocks {P : PropertyMap → Prop} {m : Manifest} :
    (∀ b ∈ m.blocks, P b) ↔ P m.properties ∧ (∀ n ∈ m.networks, P n.cloudProperties) ∧
      (∀ p ∈ m.resourcePools, P p.cloudProperties ∧ P p.env) ∧
      (∀ p ∈ m.diskPools, P p.cloudProperties) ∧ ∀ j ∈ m.jobs, P j.properties := by
  simp only [blocks, Section.all, entityBlocks, List.forall_mem_cons, List.flatMap_cons,
    List.flatMap_nil, List.forall_mem_append, List.forall_mem_flatMap, List.not_mem_nil,
    false_implies, implies_true, and_true]

/-- Every property tree in a manifest: its blocks and all that is inside them. -/
def Manifest.parts (m : Manifest) : List Property :=
  m.blocks.flatMap fun b => (Property.map b).parts

/-- The values of a document that property blocks are built from, when the value under a name is
found by `field`. A block that is not written is null. -/
def blocksVia (field : Value → String → Value) (document : Value) : List Value :=
  field document "properties" :: Section.all.flatMap fun part =>
    (field document part.key).elements.flatMap fun entry =>
      part.blocks.map fun block => field entry block.key

theorem forall_blocksVia {P : Value → Prop} {field : Value → String → Value} {v : Value}
    (start : P v) (fields : ∀ v name, P v → P (field v name))
    (items : ∀ v, P v → ∀ w ∈ v.elements, P w) : ∀ b ∈ blocksVia field v, P b := by
  intro b member
  rcases List.mem_cons.mp member with rfl | member
  · exact fields v _ start
  · obtain ⟨part, _, inSection⟩ := List.mem_flatMap.mp member
    obtain ⟨entry, inEntries, inEntry⟩ := List.mem_flatMap.mp inSection
    obtain ⟨block, _, rfl⟩ := List.mem_map.mp inEntry
    exact fields _ _ (items _ (fields v _ start) entry inEntries)

theorem blocksVia_related {R : Value → Value → Prop} {f g : Value → String → Value} {v w : Value}
    (start : R v w) (fields : ∀ v w name, R v w → R (f v name) (g w name))
    (items : ∀ v w, R v w → List.Forall₂ R v.elements w.elements) :
    List.Forall₂ R (blocksVia f v) (blocksVia g w) := by
  refine .cons (fields v w _ start) ?_
  refine List.rel_flatMap (R := Eq) (List.forall₂_same.mpr fun _ _ => rfl) ?_
  rintro part _ rfl
  refine List.rel_flatMap (items _ _ (fields v w _ start)) fun entry other related => ?_
  simp only [List.forall₂_map_left_iff, List.forall₂_map_right_iff]
  exact List.forall₂_same.mpr fun block _ => fields entry other _ related

theorem ManifestEntry.entries_eq {v : Value} {e : ManifestEntry}
    (success : ManifestEntry.read v = .ok e) (part : Section) :
    e.entries part = (v.field part.key).elements := by
  have governs : Governs ManifestEntry.fields part.key (withDefault [] (list anything))
      (·.entries part) := by
    cases part <;> constructor <;>
      simp [ManifestEntry.fields, ManifestEntry.entries, Section.key, bind_eq_ok, pure, Except.pure]
  have absent : withDefault [] (list anything) .null = .ok (({} : ManifestEntry).entries part) := by
    cases part <;> rfl
  exact list_anything_ok (record_field governs absent success)

section Written

variable {v : Value}

private theorem field_written {ρ : Type} {fields : List (RecordField ρ)} {name title : String}
    {get : ρ → Value} {initial e : ρ} (governs : Governs fields name anything get)
    (absent : get initial = .null) (read : record title fields initial v = .ok e) :
    get e = v.field name :=
  (Except.ok.inj (record_field governs (by rw [absent]; rfl) read)).symm

theorem NetworkEntry.cloudProperties_eq {e : NetworkEntry} (read : NetworkEntry.read v = .ok e) :
    e.cloudProperties = v.field "cloud_properties" := by
  have governs : Governs NetworkEntry.fields "cloud_properties" anything (·.cloudProperties) := by
    constructor <;> simp [NetworkEntry.fields, bind_eq_ok, pure, Except.pure, anything]
  exact field_written governs rfl read

theorem ResourcePoolEntry.cloudProperties_eq {e : ResourcePoolEntry}
    (read : ResourcePoolEntry.read v = .ok e) : e.cloudProperties = v.field "cloud_properties" := by
  have governs :
      Governs ResourcePoolEntry.fields "cloud_properties" anything (·.cloudProperties) := by
    constructor <;> simp [ResourcePoolEntry.fields, bind_eq_ok, pure, Except.pure, anything]
  exact field_written governs rfl read

theorem ResourcePoolEntry.env_eq {e : ResourcePoolEntry} (read : ResourcePoolEntry.read v = .ok e) :
    e.env = v.field "env" := by
  have governs : Governs ResourcePoolEntry.fields "env" anything (·.env) := by
    constructor <;> simp [ResourcePoolEntry.fields, bind_eq_ok, pure, Except.pure, anything]
  exact field_written governs rfl read

theorem DiskPoolEntry.cloudProperties_eq {e : DiskPoolEntry} (read : DiskPoolEntry.read v = .ok e) :
    e.cloudProperties = v.field "cloud_properties" := by
  have governs : Governs DiskPoolEntry.fields "cloud_properties" anything (·.cloudProperties) := by
    constructor <;> simp [DiskPoolEntry.fields, bind_eq_ok, pure, Except.pure, anything]
  exact field_written governs rfl read

theorem JobEntry.properties_eq {e : JobEntry} (read : JobEntry.read v = .ok e) :
    e.properties = v.field "properties" := by
  have governs : Governs JobEntry.fields "properties" anything (·.properties) := by
    constructor <;> simp [JobEntry.fields, bind_eq_ok, pure, Except.pure, anything]
  exact field_written governs rfl read

theorem ManifestEntry.properties_eq {e : ManifestEntry} (read : ManifestEntry.read v = .ok e) :
    e.properties = v.field "properties" := by
  have governs : Governs ManifestEntry.fields "properties" anything (·.properties) := by
    constructor <;> simp [ManifestEntry.fields, bind_eq_ok, pure, Except.pure, anything]
  exact field_written governs rfl read

end Written

/-- Whether a block is the one that a value builds. -/
def Builds (v : Value) (m : PropertyMap) : Prop :=
  PropertyMap.build v = .ok m

private theorem networkBlocks_built {entry : Value} {e : NetworkEntry} {n : Network}
    (read : NetworkEntry.read entry = .ok e) (built : Network.ofEntry e = .ok n) :
    List.Forall₂ Builds (Section.networks.blocks.map fun block => entry.field block.key)
      [n.cloudProperties] := by
  obtain ⟨m, block, rfl⟩ := Network.ofEntry_ok built
  rw [NetworkEntry.cloudProperties_eq read] at block
  exact .cons block .nil

private theorem resourcePoolBlocks_built {entry : Value} {e : ResourcePoolEntry} {p : ResourcePool}
    (read : ResourcePoolEntry.read entry = .ok e) (built : ResourcePool.ofEntry e = .ok p) :
    List.Forall₂ Builds (Section.resourcePools.blocks.map fun block => entry.field block.key)
      [p.cloudProperties, p.env] := by
  obtain ⟨first, second, cloudBlock, envBlock, rfl⟩ := ResourcePool.ofEntry_ok built
  rw [ResourcePoolEntry.cloudProperties_eq read] at cloudBlock
  rw [ResourcePoolEntry.env_eq read] at envBlock
  exact .cons cloudBlock (.cons envBlock .nil)

private theorem diskPoolBlocks_built {entry : Value} {e : DiskPoolEntry} {p : DiskPool}
    (read : DiskPoolEntry.read entry = .ok e) (built : DiskPool.ofEntry e = .ok p) :
    List.Forall₂ Builds (Section.diskPools.blocks.map fun block => entry.field block.key)
      [p.cloudProperties] := by
  obtain ⟨m, block, rfl⟩ := DiskPool.ofEntry_ok built
  rw [DiskPoolEntry.cloudProperties_eq read] at block
  exact .cons block .nil

private theorem jobBlocks_built {entry : Value} {e : JobEntry} {j : Job}
    (read : JobEntry.read entry = .ok e) (built : Job.ofEntry e = .ok j) :
    List.Forall₂ Builds (Section.jobs.blocks.map fun block => entry.field block.key)
      [j.properties] := by
  obtain ⟨templates, networks, m, _, _, block, rfl⟩ := Job.ofEntry_ok built
  rw [JobEntry.properties_eq read] at block
  exact .cons block .nil

theorem Manifest.Built.blocks {v : Value} {e : ManifestEntry} {m : Manifest}
    (read : ManifestEntry.read v = .ok e) (built : Manifest.Built e m) :
    List.Forall₂ Builds (blocksVia Value.field v) m.blocks := by
  refine .cons ?_ (List.rel_flatMap (R := Eq) (List.forall₂_same.mpr fun _ _ => rfl) ?_)
  · rw [← ManifestEntry.properties_eq read]
    exact built.properties
  · rintro part _ rfl
    simp only [← ManifestEntry.entries_eq read]
    cases part with
    | networks =>
      exact List.rel_flatMap (section_ok built.networks)
        fun _ _ ⟨_, decoded, made⟩ => networkBlocks_built decoded made
    | resourcePools =>
      exact List.rel_flatMap (section_ok built.resourcePools)
        fun _ _ ⟨_, decoded, made⟩ => resourcePoolBlocks_built decoded made
    | diskPools =>
      exact List.rel_flatMap (section_ok built.diskPools)
        fun _ _ ⟨_, decoded, made⟩ => diskPoolBlocks_built decoded made
    | jobs =>
      exact List.rel_flatMap (section_ok built.jobs)
        fun _ _ ⟨_, decoded, made⟩ => jobBlocks_built decoded made

end Deployment
