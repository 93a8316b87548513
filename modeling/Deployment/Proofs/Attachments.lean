import Deployment.Template.Context
import Mathlib.Data.List.Nodup

namespace Deployment

/-- The last attachment to a network of that name. -/
def Job.lastNetwork? (j : Job) (name : String) : Option JobNetwork :=
  j.networks.reverse.find? (·.name == name)

theorem Job.exists_lastNetwork?_iff {j : Job} {name : String} :
    (∃ a, j.lastNetwork? name = some a) ↔ ∃ a, j.network? name = some a := by
  simp only [← Option.isSome_iff_exists, lastNetwork?, network?, List.find?_isSome,
    List.mem_reverse]

theorem Job.name_of_network? {j : Job} {name : String} {a : JobNetwork}
    (found : j.network? name = some a) : a.name = name := by
  simpa using List.find?_some found

theorem Job.name_of_lastNetwork? {j : Job} {name : String} {a : JobNetwork}
    (found : j.lastNetwork? name = some a) : a.name = name := by
  simpa using List.find?_some found

namespace JobNetwork

/-- The address that the instance with that index has through an attachment: the static one in its
position, or else that of the declared network. -/
def address (m : Manifest) (index : UInt64) (a : JobNetwork) : Option String :=
  match a.staticIps[index.toNat]? with
  | some ip => some ip
  | none => (m.network? a.name).bind (·.ip)

/-- Whether a network as an instance sees it has the details of an attachment, and those of the
first declared network of the name as far as there is one. -/
structure ShownAs (m : Manifest) (index : UInt64) (a : JobNetwork) (n : NetworkContext) : Prop where
  default : n.default = a.default
  ip : n.ip = a.address m index
  netmask : n.netmask = (m.network? a.name).bind (·.netmask)
  gateway : n.gateway = (m.network? a.name).bind (·.gateway)
  dns : n.dns = ((m.network? a.name).map (·.dns)).getD []

variable {m : Manifest} {index : UInt64} {a b : JobNetwork}

theorem shownAs_ofAttachment (m : Manifest) (index : UInt64) (a : JobNetwork) :
    a.ShownAs m index (.ofAttachment m a index) := by
  have ip : (NetworkContext.ofAttachment m a index).ip = a.address m index := by
    cases own : a.staticIps[index.toNat]? <;> simp [NetworkContext.ofAttachment, address, own]
  exact { default := rfl, ip, netmask := rfl, gateway := rfl, dns := rfl }

/-- Attachments to one name show the same when they agree on what the job says. -/
theorem ShownAs.iff_of_name_eq {n : NetworkContext} (shown : b.ShownAs m index n)
    (name : a.name = b.name) :
    a.ShownAs m index n ↔ b.default = a.default ∧ b.address m index = a.address m index := by
  constructor
  · intro other
    exact ⟨shown.default.symm.trans other.default, shown.ip.symm.trans other.ip⟩
  · rintro ⟨roles, address⟩
    constructor
    · exact shown.default.trans roles
    · exact shown.ip.trans address
    · exact name ▸ shown.netmask
    · exact name ▸ shown.gateway
    · exact name ▸ shown.dns

end JobNetwork

namespace EvaluationContext

def named? (networks : List (String × NetworkContext)) (name : String) : Option NetworkContext :=
  (networks.find? (·.1 == name)).map (·.2)

theorem named?_cons (e : String × NetworkContext) (rest : List (String × NetworkContext))
    (name : String) :
    named? (e :: rest) name = if e.1 = name then some e.2 else named? rest name := by
  by_cases same : e.1 = name <;> simp [named?, same]

variable {networks : List (String × NetworkContext)}

theorem named?_putNetwork (name : String) (n : NetworkContext) (other : String) :
    named? (putNetwork name n networks) other =
      if name = other then some n else named? networks other := by
  induction networks with
  | nil => rw [putNetwork, named?_cons]
  | cons e rest ih =>
    by_cases same : e.1 = name
    · rw [putNetwork, if_pos (by simpa using same), named?_cons, named?_cons, same]
      by_cases here : name = other <;> simp [here]
    · rw [putNetwork, if_neg (by simpa using same), named?_cons, named?_cons, ih]
      by_cases here : e.1 = other
      · have different : name ≠ other := fun this => same (here.trans this.symm)
        simp [here, different]
      · simp [here]

theorem names_putNetwork (name : String) (n : NetworkContext) :
    (putNetwork name n networks).map (·.1) =
      if name ∈ networks.map (·.1) then networks.map (·.1) else networks.map (·.1) ++ [name] := by
  induction networks with
  | nil => rfl
  | cons e rest ih =>
    by_cases same : e.1 = name
    · simp [putNetwork, same]
    · rw [putNetwork, if_neg (by simpa using same), List.map_cons, ih]
      by_cases known : name ∈ rest.map (·.1)
      · rw [if_pos known, List.map_cons, if_pos (List.mem_cons_of_mem _ known)]
      · have new : name ∉ e.1 :: rest.map (·.1) := by simp [known, Ne.symm same]
        rw [if_neg known, List.map_cons, if_neg new, List.cons_append]

theorem nodup_putNetwork {name : String} {n : NetworkContext}
    (distinct : (networks.map (·.1)).Nodup) : ((putNetwork name n networks).map (·.1)).Nodup := by
  rw [names_putNetwork]
  split
  · exact distinct
  · rename_i new
    have apart : List.Disjoint (networks.map (·.1)) [name] := by simpa using new
    exact List.nodup_append'.mpr ⟨distinct, List.nodup_singleton _, apart⟩

section Fold

variable {context : JobNetwork → NetworkContext}

theorem named?_foldl (attachments : List JobNetwork) (name : String) :
    named? (attachments.foldl (fun ns a => putNetwork a.name (context a) ns) networks) name =
      ((attachments.reverse.find? (·.name == name)).map context).or (named? networks name) := by
  induction attachments generalizing networks with
  | nil => rfl
  | cons a rest ih =>
    rw [List.foldl_cons, ih, named?_putNetwork, List.reverse_cons, List.find?_append]
    cases rest.reverse.find? (·.name == name) with
    | some later => rfl
    | none => by_cases here : a.name = name <;> simp [here]

theorem nodup_foldl (attachments : List JobNetwork) (distinct : (networks.map (·.1)).Nodup) :
    ((attachments.foldl (fun ns a => putNetwork a.name (context a) ns) networks).map
      (·.1)).Nodup := by
  induction attachments generalizing networks with
  | nil => exact distinct
  | cons a rest ih => exact ih (nodup_putNetwork distinct)

end Fold

theorem exists_named?_iff {name : String} :
    (∃ n, named? networks name = some n) ↔ name ∈ networks.map (·.1) := by
  rw [← Option.isSome_iff_exists, named?, Option.isSome_map, List.find?_isSome, List.mem_map]
  simp only [beq_iff_eq]

theorem mem_of_named? {name : String} {n : NetworkContext} (found : named? networks name = some n) :
    (name, n) ∈ networks := by
  obtain ⟨e, first, rfl⟩ := Option.map_eq_some_iff.mp found
  have same : e.1 = name := by simpa using List.find?_some first
  exact same ▸ List.mem_of_find?_eq_some first

theorem named?_networksOf (m : Manifest) (job : Job) (index : UInt64) (name : String) :
    named? (networksOf m job index) name =
      (job.lastNetwork? name).map (NetworkContext.ofAttachment m · index) := by
  rw [networksOf, named?_foldl, Job.lastNetwork?]
  exact Option.or_none

/-- An instance sees a network under a name when the job finds an attachment under it, and then one
only. It sees the last attachment of the name, which amounts to the one that the job finds, the
first, exactly when both take the same roles and give the instance the same address. -/
theorem forInstance_networks {m : Manifest} {job : Job} {index : UInt64}
    (inRange : index < job.instances) :
    ∃ c, forInstance m job index = .ok c ∧ (c.networks.map (·.1)).Nodup ∧ ∀ name,
      (name ∈ c.networks.map (·.1) ↔ ∃ a, job.network? name = some a) ∧
      ∀ first, job.network? name = some first →
        ∃ last n, job.lastNetwork? name = some last ∧ (name, n) ∈ c.networks ∧
          last.ShownAs m index n ∧
          (first.ShownAs m index n ↔
            last.default = first.default ∧ last.address m index = first.address m index) := by
  have context : forInstance m job index = .ok
      { deployment := m.name, jobName := job.name, index,
        properties := m.properties.merge job.properties, networks := networksOf m job index } := by
    rw [forInstance, if_pos inRange]
  have distinct : ((networksOf m job index).map (·.1)).Nodup := nodup_foldl _ List.nodup_nil
  refine ⟨_, context, distinct, fun name => ⟨?_, fun first found => ?_⟩⟩
  · rw [← exists_named?_iff, named?_networksOf, ← Job.exists_lastNetwork?_iff]
    simp
  · obtain ⟨last, latest⟩ := Job.exists_lastNetwork?_iff.mpr ⟨first, found⟩
    have shown := JobNetwork.shownAs_ofAttachment m index last
    have entry : named? (networksOf m job index) name =
        some (NetworkContext.ofAttachment m last index) := by
      rw [named?_networksOf, latest]
      rfl
    have names : first.name = last.name :=
      (Job.name_of_network? found).trans (Job.name_of_lastNetwork? latest).symm
    exact ⟨last, _, latest, mem_of_named? entry, shown, shown.iff_of_name_eq names⟩

/-- A job that is attached to a network twice: the instance does not see the roles that the job
finds under the name. -/
theorem forInstance_networks_repeated :
    let attach (role ip : String) : JobNetwork :=
      { name := "private", default := [⟨role⟩], staticIps := [ip] }
    let job : Job :=
      { name := "web", instances := 1, lifecycle := .service, templates := [],
        networks := [attach "dns" "10.0.0.1", attach "gateway" "10.0.0.2"], persistentDisk := 0,
        persistentDiskPool := none, properties := [] }
    let m : Manifest :=
      { name := "d", watchTime := .standard, networks := [], resourcePools := [], diskPools := [],
        jobs := [job], properties := [] }
    0 < job.instances ∧ ∃ c first n, forInstance m job 0 = .ok c ∧
      job.network? "private" = some first ∧ ("private", n) ∈ c.networks ∧
      ¬ first.ShownAs m 0 n := by
  intro attach job m
  have inRange : 0 < job.instances := by decide
  obtain ⟨c, context, _, networks⟩ := forInstance_networks (m := m) inRange
  have found : job.network? "private" = some (attach "dns" "10.0.0.1") := rfl
  obtain ⟨last, n, latest, member, _, agrees⟩ := (networks "private").2 _ found
  have gateway : some (attach "gateway" "10.0.0.2") = some last := latest
  refine ⟨inRange, c, _, n, context, found, member, ?_⟩
  rw [agrees, ← Option.some.inj gateway]
  decide

end EvaluationContext

end Deployment
