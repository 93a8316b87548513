import Deployment.Proofs.Blocks
import Deployment.Proofs.Reordering
import Deployment.Proofs.WatchTimeValues

namespace Deployment

open Outcome
open Yaml (Value Mismatch)
open Yaml.Shape

/-- The names of the property blocks. -/
def Block.keys : List String :=
  [Block.cloudProperties, .env, .properties].map Block.key

section Entries

variable (held : List String)

/-- Whether one network as written is another one but for the order in its block. -/
def NetworkEntry.Reordered (e f : NetworkEntry) : Prop :=
  ∃ w, e.cloudProperties.ReorderedAt held "cloud_properties" w ∧ f = { e with cloudProperties := w }

def ResourcePoolEntry.Reordered (e f : ResourcePoolEntry) : Prop :=
  ∃ w x, e.cloudProperties.ReorderedAt held "cloud_properties" w ∧ e.env.ReorderedAt held "env" x ∧
    f = { e with cloudProperties := w, env := x }

def DiskPoolEntry.Reordered (e f : DiskPoolEntry) : Prop :=
  ∃ w, e.cloudProperties.ReorderedAt held "cloud_properties" w ∧ f = { e with cloudProperties := w }

def JobEntry.Reordered (e f : JobEntry) : Prop :=
  ∃ w, e.properties.ReorderedAt held "properties" w ∧ f = { e with properties := w }

def UpdateEntry.Reordered (e f : UpdateEntry) : Prop :=
  Option.Rel (Value.Reordered held) e.watchTime f.watchTime

/-- Whether one manifest as written is another one but for the order in what is not read yet. -/
structure ManifestEntry.Reordered (e f : ManifestEntry) : Prop where
  name : e.name = f.name
  update : e.update.Reordered held f.update
  networks : List.Forall₂ (Value.Reordered held) e.networks f.networks
  resourcePools : List.Forall₂ (Value.Reordered held) e.resourcePools f.resourcePools
  diskPools : List.Forall₂ (Value.Reordered held) e.diskPools f.diskPools
  jobs : List.Forall₂ (Value.Reordered held) e.jobs f.jobs
  properties : e.properties.ReorderedAt held "properties" f.properties

end Entries

section Reading

variable {held : List String}

theorem TemplateEntry.respects : Respects held Eq TemplateEntry.read := by
  refine record_respects ?_ (by decide) ?_ rfl _
  · simp [fields, interchange_set]
  · simp only [fields, List.forall_mem_cons]
    refine ⟨fieldRespects_set (respects_text.withDefault rfl) ?_,
      fieldRespects_set (respects_text.withDefault rfl) ?_, by simp⟩
    all_goals
      rintro a r _ rfl
      rfl

theorem JobNetworkEntry.respects : Respects held Eq JobNetworkEntry.read := by
  refine record_respects ?_ (by decide) ?_ rfl _
  · simp [fields, interchange_set]
  · simp only [fields, List.forall_mem_cons]
    refine ⟨fieldRespects_set (respects_text.withDefault rfl) ?_,
      fieldRespects_set (respects_text.list_eq.withDefault rfl) ?_,
      fieldRespects_set (respects_text.list_eq.withDefault rfl) ?_, by simp⟩
    all_goals
      rintro a r _ rfl
      rfl

theorem NetworkEntry.respects :
    Respects held (NetworkEntry.Reordered held) NetworkEntry.read := by
  refine record_respects ?_ (by decide) ?_ ⟨_, .refl _, rfl⟩ _
  · simp [fields, interchange_set, interchange_written]
  · simp only [fields, List.forall_mem_cons]
    refine ⟨fieldRespects_set (respects_text.withDefault rfl) ?_,
      fieldRespects_set (respects_text.withDefault rfl) ?_,
      fieldRespects_set respects_text.optional_eq ?_,
      fieldRespects_set respects_text.optional_eq ?_,
      fieldRespects_set respects_text.optional_eq ?_,
      fieldRespects_set (respects_text.list_eq.withDefault rfl) ?_,
      fieldRespects_written ?block, by simp⟩
    case block =>
      rintro v w r _ block ⟨_, _, rfl⟩
      exact ⟨w, block, rfl⟩
    all_goals
      rintro a r _ ⟨w, block, rfl⟩
      exact ⟨w, block, rfl⟩

theorem ResourcePoolEntry.respects :
    Respects held (ResourcePoolEntry.Reordered held) ResourcePoolEntry.read := by
  refine record_respects ?_ (by decide) ?_ ⟨_, _, .refl _, .refl _, rfl⟩ _
  · simp [fields, interchange_set, interchange_written, interchange_both_written]
  · simp only [fields, List.forall_mem_cons]
    refine ⟨fieldRespects_set (respects_text.withDefault rfl) ?_,
      fieldRespects_set (respects_text.withDefault rfl) ?_,
      fieldRespects_written ?block, fieldRespects_written ?env, by simp⟩
    case block =>
      rintro v w r _ block ⟨_, x, _, env, rfl⟩
      exact ⟨w, x, block, env, rfl⟩
    case env =>
      rintro v x r _ env ⟨w, _, block, _, rfl⟩
      exact ⟨w, x, block, env, rfl⟩
    all_goals
      rintro a r _ ⟨w, x, block, env, rfl⟩
      exact ⟨w, x, block, env, rfl⟩

theorem DiskPoolEntry.respects :
    Respects held (DiskPoolEntry.Reordered held) DiskPoolEntry.read := by
  refine record_respects ?_ (by decide) ?_ ⟨_, .refl _, rfl⟩ _
  · simp [fields, interchange_set, interchange_written]
  · simp only [fields, List.forall_mem_cons]
    refine ⟨fieldRespects_set (respects_text.withDefault rfl) ?_,
      fieldRespects_set (respects_natural.withDefault rfl) ?_,
      fieldRespects_written ?block, by simp⟩
    case block =>
      rintro v w r _ block ⟨_, _, rfl⟩
      exact ⟨w, block, rfl⟩
    all_goals
      rintro a r _ ⟨w, block, rfl⟩
      exact ⟨w, block, rfl⟩

theorem JobEntry.respects : Respects held (JobEntry.Reordered held) JobEntry.read := by
  refine record_respects ?_ (by decide) ?_ ⟨_, .refl _, rfl⟩ _
  · simp [fields, interchange_set, interchange_written]
  · simp only [fields, List.forall_mem_cons]
    refine ⟨fieldRespects_set (respects_text.withDefault rfl) ?_,
      fieldRespects_set (respects_natural.withDefault rfl) ?_,
      fieldRespects_set respects_text.optional_eq ?_,
      fieldRespects_set (TemplateEntry.respects.list_eq.withDefault rfl) ?_,
      fieldRespects_set (JobNetworkEntry.respects.list_eq.withDefault rfl) ?_,
      fieldRespects_set (respects_natural.withDefault rfl) ?_,
      fieldRespects_set respects_text.optional_eq ?_,
      fieldRespects_written ?block, by simp⟩
    case block =>
      rintro v w r _ block ⟨_, _, rfl⟩
      exact ⟨w, block, rfl⟩
    all_goals
      rintro a r _ ⟨w, block, rfl⟩
      exact ⟨w, block, rfl⟩

theorem UpdateEntry.respects : Respects held (UpdateEntry.Reordered held) UpdateEntry.read := by
  refine record_respects ?_ (by decide) ?_ .none _
  · simp [fields]
  · simp only [fields, List.forall_mem_cons]
    exact ⟨fieldRespects_set_of respects_anything.optional fun _ _ _ _ pair _ => pair, by simp⟩

theorem ManifestEntry.respects :
    Respects held (ManifestEntry.Reordered held) ManifestEntry.read := by
  have sections : Respects held (List.Forall₂ (Value.Reordered held))
      (withDefault [] (list anything)) := respects_anything.list.withDefault .nil
  refine record_respects ?_ (by decide) ?_ ⟨rfl, .none, .nil, .nil, .nil, .nil, .refl _⟩ _
  · simp [fields, interchange_set, interchange_written]
  · simp only [fields, List.forall_mem_cons]
    refine ⟨fieldRespects_set (respects_text.withDefault rfl) ?_,
      fieldRespects_set_of (UpdateEntry.respects.withDefault .none) ?_,
      fieldRespects_set_of sections ?_, fieldRespects_set_of sections ?_,
      fieldRespects_set_of sections ?_, fieldRespects_set_of sections ?_,
      fieldRespects_written ?_, by simp⟩
    · exact fun name r s start => { start with name := rfl }
    · exact fun a b r s pair start => { start with update := pair }
    · exact fun vs ws r s pair start => { start with networks := pair }
    · exact fun vs ws r s pair start => { start with resourcePools := pair }
    · exact fun vs ws r s pair start => { start with diskPools := pair }
    · exact fun vs ws r s pair start => { start with jobs := pair }
    · exact fun v w r s pair start => { start with properties := pair }

end Reading

section Entities

variable (maps : PropertyMap → PropertyMap → Prop)

/-- Whether networks are the same but for their blocks, which are related. -/
def Network.UpTo (n l : Network) : Prop :=
  ∃ m, maps n.cloudProperties m ∧ l = { n with cloudProperties := m }

def ResourcePool.UpTo (p q : ResourcePool) : Prop :=
  ∃ m n, maps p.cloudProperties m ∧ maps p.env n ∧ q = { p with cloudProperties := m, env := n }

def DiskPool.UpTo (p q : DiskPool) : Prop :=
  ∃ m, maps p.cloudProperties m ∧ q = { p with cloudProperties := m }

def Job.UpTo (j k : Job) : Prop :=
  ∃ m, maps j.properties m ∧ k = { j with properties := m }

/-- Whether manifests are the same but for their blocks, which are related. -/
structure Manifest.UpTo (m n : Manifest) : Prop where
  name : m.name = n.name
  watchTime : m.watchTime = n.watchTime
  networks : List.Forall₂ (Network.UpTo maps) m.networks n.networks
  resourcePools : List.Forall₂ (ResourcePool.UpTo maps) m.resourcePools n.resourcePools
  diskPools : List.Forall₂ (DiskPool.UpTo maps) m.diskPools n.diskPools
  jobs : List.Forall₂ (Job.UpTo maps) m.jobs n.jobs
  properties : maps m.properties n.properties

end Entities

section Building

variable {held : List String} {maps : PropertyMap → PropertyMap → Prop}

/-- Whether a block in another order can be built where the block can, as a related one. -/
def BlocksFollow (held : List String) (maps : PropertyMap → PropertyMap → Prop) : Prop :=
  ∀ (b : Block) (v w : Value), v.ReorderedAt held b.key w →
    Follows maps (PropertyMap.build v) (PropertyMap.build w)

section Entities

variable (blocks : BlocksFollow held maps)

include blocks

theorem Network.ofEntry_follows {e f : NetworkEntry} (reordered : e.Reordered held f) :
    Follows (Network.UpTo maps) (Network.ofEntry e) (Network.ofEntry f) := by
  obtain ⟨w, block, rfl⟩ := reordered
  exact (blocks .cloudProperties _ _ block).mapError.bind
    fun m n pair => follows_ok ⟨n, pair, rfl⟩

theorem ResourcePool.ofEntry_follows {e f : ResourcePoolEntry} (reordered : e.Reordered held f) :
    Follows (ResourcePool.UpTo maps) (ResourcePool.ofEntry e) (ResourcePool.ofEntry f) := by
  obtain ⟨w, x, block, env, rfl⟩ := reordered
  refine (blocks .cloudProperties _ _ block).mapError.bind fun _ m pair => ?_
  exact (blocks .env _ _ env).mapError.bind fun _ n other => follows_ok ⟨m, n, pair, other, rfl⟩

theorem DiskPool.ofEntry_follows {e f : DiskPoolEntry} (reordered : e.Reordered held f) :
    Follows (DiskPool.UpTo maps) (DiskPool.ofEntry e) (DiskPool.ofEntry f) := by
  obtain ⟨w, block, rfl⟩ := reordered
  exact (blocks .cloudProperties _ _ block).mapError.bind
    fun m n pair => follows_ok ⟨n, pair, rfl⟩

theorem Job.ofEntry_follows {e f : JobEntry} (reordered : e.Reordered held f) :
    Follows (Job.UpTo maps) (Job.ofEntry e) (Job.ofEntry f) := by
  obtain ⟨w, block, rfl⟩ := reordered
  refine (follows_refl _).bind ?_
  rintro templates _ rfl
  refine (follows_refl _).bind ?_
  rintro networks _ rfl
  exact (blocks .properties _ _ block).mapError.bind
    fun m n pair => follows_ok ⟨n, pair, rfl⟩

end Entities

theorem readEach_follows {α β ε : Type} {item : α → α → Prop} {related : β → β → Prop}
    {read : Nat → α → Except ε β}
    (each : ∀ i x y, item x y → Follows related (read i x) (read i y)) {xs ys : List α}
    (items : List.Forall₂ item xs ys) (i : Nat) :
    Follows (List.Forall₂ related) (readEach read i xs) (readEach read i ys) := by
  induction items generalizing i with
  | nil => exact follows_ok .nil
  | cons head tail ih =>
    rw [readEach, readEach]
    refine (each i _ _ head).bind fun x y first => (ih (i + 1)).bind fun xs ys others => ?_
    exact follows_ok (.cons first others)

theorem section_follows {ρ α : Type} {part : Section} {decode : Value → Except Mismatch ρ}
    {build : ρ → Except EntryError α} {written : ρ → ρ → Prop} {related : α → α → Prop}
    (respects : Respects held written decode)
    (builds : ∀ e f, written e f → Follows related (build e) (build f)) {vs ws : List Value}
    (items : List.Forall₂ (Value.Reordered held) vs ws) :
    Follows (List.Forall₂ related) (readEach (parseEntry part decode build) 0 vs)
      (readEach (parseEntry part decode build) 0 ws) := by
  refine readEach_follows (fun i v w reordered => ?_) items 0
  exact (((respects v w reordered).mapError).bind builds).mapError

namespace Manifest

/-- Only texts and numbers are watch times, and there is no order in these. -/
theorem watchTimeOf_follows {e f : UpdateEntry} (reordered : e.Reordered held f) :
    Follows Eq (watchTimeOf e) (watchTimeOf f) := by
  have refused {v : Value} {x : WatchTime} (present : v ≠ .null) (nonText : ∀ s, v ≠ .string s)
      (other : ∀ k, v ≠ .number k) : ¬ WatchTime.parse (watchTimeExpression v) = .ok x := by
    intro success
    obtain ⟨n, same, _⟩ := (parse_watchTimeExpression_ok_iff present nonText).mp success
    exact other _ same
  obtain ⟨_ | v⟩ := e
  · obtain ⟨_ | w⟩ := f
    · exact follows_refl _
    · cases reordered
  · obtain ⟨_ | w⟩ := f
    · cases reordered
    · cases reordered with
      | some pair =>
        cases pair with
        | same => exact follows_refl _
        | _ => exact fun x success => absurd success (refused (by simp) (by simp) (by simp))

/-- Where the entries of a manifest describe a deployment, reordered ones do, and it differs in its
blocks only. -/
theorem ofEntry_follows (blocks : BlocksFollow held maps) {e f : ManifestEntry}
    (reordered : e.Reordered held f) :
    Follows (Manifest.UpTo maps) (ofEntry e) (ofEntry f) := by
  unfold ofEntry
  rw [← reordered.name]
  by_cases blank : Text.trimString e.name = ""
  · rw [if_pos blank]
    exact follows_error
  rw [if_neg blank, if_neg blank]
  refine (section_follows NetworkEntry.respects
    (fun _ _ => Network.ofEntry_follows blocks) reordered.networks).mapError.bind
    fun _ _ networks => ?_
  refine (section_follows ResourcePoolEntry.respects
    (fun _ _ => ResourcePool.ofEntry_follows blocks) reordered.resourcePools).mapError.bind
    fun _ _ resourcePools => ?_
  refine (section_follows DiskPoolEntry.respects
    (fun _ _ => DiskPool.ofEntry_follows blocks) reordered.diskPools).mapError.bind
    fun _ _ diskPools => ?_
  refine (section_follows JobEntry.respects
    (fun _ _ => Job.ofEntry_follows blocks) reordered.jobs).mapError.bind
    fun _ _ jobs => ?_
  refine (blocks .properties _ _ reordered.properties).mapError.bind fun _ _ properties => ?_
  refine (watchTimeOf_follows reordered.update).mapError.bind fun _ _ watchTime => ?_
  exact follows_ok ⟨rfl, watchTime, networks, resourcePools, diskPools, jobs, properties⟩

theorem ofDocument_follows (blocks : BlocksFollow held maps) {v w : Value}
    (reordered : v.Reordered held w) (origin : String) :
    Follows (Manifest.UpTo maps) (ofDocument origin v) (ofDocument origin w) := by
  rw [ofDocument, ofDocument, entryOf_eq, entryOf_eq]
  exact ((ManifestEntry.respects v w reordered).mapError.bind
    fun _ _ => ofEntry_follows blocks).mapError

end Manifest

end Building

end Deployment
