import Deployment.Proofs.Attachments

namespace Deployment

namespace Manifest

/-- Whether two manifests have in common what the templates of a job may see. -/
structure AlikeFor (job : Job) (m n : Manifest) : Prop where
  name : m.name = n.name
  properties : m.properties = n.properties
  networks : ∀ a ∈ job.networks, m.network? a.name = n.network? a.name

/-- A manifest with nothing in it but what the templates of a job may see. -/
def seenBy (m : Manifest) (job : Job) : Manifest where
  name := m.name
  watchTime := .standard
  networks := job.networks.filterMap fun a => m.network? a.name
  resourcePools := []
  diskPools := []
  jobs := []
  properties := m.properties

variable {m : Manifest} {job : Job}

theorem name_of_network? {name : String} {network : Network}
    (found : m.network? name = some network) : network.name = name := by
  simpa using List.find?_some found

/-- Under a name that the job is attached to, what is left of a manifest declares the same network
first, or none as before. -/
theorem network?_seenBy {a : JobNetwork} (attached : a ∈ job.networks) :
    (m.seenBy job).network? a.name = m.network? a.name := by
  have listed (network : Network) : network ∈ (m.seenBy job).networks ↔
      ∃ b ∈ job.networks, m.network? b.name = some network := List.mem_filterMap
  -- A job may be attached to a name twice, but all that is left under it is its first network.
  have first {network : Network} (member : network ∈ (m.seenBy job).networks)
      (named : network.name = a.name) : m.network? a.name = some network := by
    obtain ⟨b, _, found⟩ := (listed network).mp member
    rw [← named, name_of_network? found, found]
  cases found : (m.seenBy job).network? a.name with
  | none =>
    have absent := List.find?_eq_none.mp found
    refine (Option.eq_none_iff_forall_ne_some.mpr fun network declared => ?_).symm
    refine absent network ((listed network).mpr ⟨a, attached, declared⟩) ?_
    simpa using name_of_network? declared
  | some network => exact (first (List.mem_of_find?_eq_some found) (name_of_network? found)).symm

theorem alikeFor_seenBy (m : Manifest) (job : Job) : (m.seenBy job).AlikeFor job m where
  name := rfl
  properties := rfl
  networks _ attached := network?_seenBy attached

end Manifest

namespace EvaluationContext

variable {m n : Manifest} {job : Job} {index : UInt64}

theorem networksOf_congr
    (each : ∀ a ∈ job.networks,
      NetworkContext.ofAttachment m a index = NetworkContext.ofAttachment n a index) :
    networksOf m job index = networksOf n job index := by
  rw [networksOf, networksOf]
  exact List.foldl_ext _ _ _ fun networks a attached => by rw [each a attached]

theorem forInstance_of_alikeFor (alike : m.AlikeFor job n) (index : UInt64) :
    forInstance m job index = forInstance n job index := by
  have networks : networksOf m job index = networksOf n job index := by
    refine networksOf_congr fun a attached => ?_
    rw [NetworkContext.ofAttachment, NetworkContext.ofAttachment, alike.networks a attached]
  rw [forInstance, forInstance, alike.name, alike.properties, networks]

/-- Manifests that have in common what a job may see give its instances the same contexts, and the
same error for an index out of range. So everything else can be taken out of a manifest: the other
jobs, the pools, the update policy, the networks that the job is not attached to, and those that
repeat a name. -/
theorem forInstance_confined {job : Job} :
    (∀ m n : Manifest, m.AlikeFor job n → ∀ index,
      forInstance m job index = forInstance n job index) ∧
    ∀ (m : Manifest) (index : UInt64),
      forInstance (m.seenBy job) job index = forInstance m job index := by
  constructor
  · intro m n alike index
    exact forInstance_of_alikeFor alike index
  · intro m index
    exact forInstance_of_alikeFor (m.alikeFor_seenBy job) index

/-- Two manifests that differ in a network that repeats a name, in one that the job is not attached
to, in the pools, in the jobs and in the watch time. -/
theorem forInstance_confined_repeated :
    let network (name ip : String) : Network :=
      { name, type := ⟨"manual"⟩, ip := some ip, netmask := none, gateway := none, dns := [],
        cloudProperties := [] }
    let job : Job :=
      { name := "web", instances := 1, lifecycle := .service, templates := [],
        networks := [⟨"private", [], []⟩, ⟨"missing", [], []⟩], persistentDisk := 0,
        persistentDiskPool := none, properties := [("port", .int 80)] }
    let m : Manifest :=
      { name := "d", watchTime := .standard,
        networks := [network "private" "10.0.0.1", network "private" "10.0.0.2"],
        resourcePools := [], diskPools := [⟨"fast", 5, []⟩], jobs := [job], properties := [] }
    let n : Manifest :=
      { name := "d", watchTime := ⟨1, 2⟩,
        networks := [network "public" "10.0.0.3", network "private" "10.0.0.1"],
        resourcePools := [⟨"small", "public", [], []⟩], diskPools := [], jobs := [],
        properties := [] }
    m.AlikeFor job n ∧ (∃ c, forInstance m job 0 = .ok c) ∧
      forInstance m job 0 = forInstance n job 0 ∧ forInstance m job 1 = forInstance n job 1 := by
  intro network job m n
  have networks : ∀ a ∈ job.networks, m.network? a.name = n.network? a.name := by
    simp [job, m, n, network, Manifest.network?]
  have alike : m.AlikeFor job n := ⟨rfl, rfl, networks⟩
  have confined := forInstance_confined.1 m n alike
  exact ⟨alike, ⟨_, rfl⟩, confined 0, confined 1⟩

end EvaluationContext

end Deployment
