import Deployment.Proofs.Parts
import Deployment.Property.Merge
import Mathlib.Data.List.Nodup

namespace Deployment

namespace PropertyMap

variable {m : PropertyMap} {key : String} {value : Property}

theorem get?_cons (e : String × Property) (rest : PropertyMap) (key : String) :
    get? (e :: rest) key = if e.1 = key then some e.2 else get? rest key := by
  by_cases same : e.1 = key
  · simp [get?, same]
  · simp [get?, same]

theorem get?_eq_none_iff : m.get? key = none ↔ key ∉ m.keys := by
  induction m with
  | nil => simp [get?, keys]
  | cons e rest ih =>
    have names : keys (e :: rest) = e.1 :: keys rest := rfl
    rw [get?_cons, names, List.mem_cons, not_or]
    by_cases same : e.1 = key
    · simp [same]
    · rw [if_neg same, ih]
      exact (and_iff_right (Ne.symm same)).symm

theorem mem_of_get? (found : m.get? key = some value) : (key, value) ∈ m := by
  obtain ⟨e, first, rfl⟩ := Option.map_eq_some_iff.mp found
  have named : e.1 = key := by simpa using List.find?_some first
  exact named ▸ List.mem_of_find?_eq_some first

theorem get?_eq_some_iff (distinct : m.keys.Nodup) : m.get? key = some value ↔ (key, value) ∈ m := by
  refine ⟨mem_of_get?, fun member => ?_⟩
  induction m with
  | nil => cases member
  | cons e rest ih =>
    obtain ⟨first, others⟩ := List.nodup_cons.mp distinct
    rw [get?_cons]
    rcases List.mem_cons.mp member with rfl | later
    · rw [if_pos rfl]
    · have different : e.1 ≠ key := fun same => first (List.mem_map.mpr ⟨_, later, same.symm⟩)
      rw [if_neg different]
      exact ih others later

theorem get?_insert (m : PropertyMap) (key : String) (value : Property) (other : String) :
    (m.insert key value).get? other = if key = other then some value else m.get? other := by
  induction m with
  | nil => rw [insert, get?_cons]
  | cons e rest ih =>
    by_cases same : e.1 = key
    · simp only [insert, same, beq_self_eq_true, if_true, get?_cons]
      by_cases found : key = other
      · simp [found]
      · simp [found]
    · rw [insert, if_neg (by simpa using same), get?_cons, get?_cons, ih]
      by_cases here : e.1 = other
      · subst here
        simp [Ne.symm same]
      · simp [here]

theorem insert_of_get? (found : m.get? key = some value) : m.insert key value = m := by
  induction m with
  | nil => cases found
  | cons e rest ih =>
    rw [get?_cons] at found
    by_cases same : e.1 = key
    · rw [if_pos same] at found
      rw [insert, if_pos (by simpa using same), ← same, ← Option.some.inj found]
    · rw [if_neg same] at found
      rw [insert, if_neg (by simpa using same), ih found]

theorem keys_insert_of_mem (known : key ∈ m.keys) : (m.insert key value).keys = m.keys := by
  induction m with
  | nil => cases known
  | cons e rest ih =>
    by_cases same : e.1 = key
    · simp [insert, same, keys]
    · have later : key ∈ PropertyMap.keys rest := by simpa [keys, Ne.symm same] using known
      rw [insert, if_neg (by simpa using same)]
      exact congrArg (e.1 :: ·) (ih later)

theorem insert_new (new : key ∉ m.keys) : m.insert key value = m ++ [(key, value)] := by
  induction m with
  | nil => rfl
  | cons e rest ih =>
    have different : e.1 ≠ key := fun same => new (by simp [keys, same])
    have later : key ∉ PropertyMap.keys rest := fun member =>
      new (List.mem_cons_of_mem _ member)
    rw [insert, if_neg (by simpa using different), ih later, List.cons_append]

theorem keys_append (m n : PropertyMap) : keys (m ++ n) = m.keys ++ n.keys :=
  List.map_append

theorem nodup_keys_insert (distinct : m.keys.Nodup) : (m.insert key value).keys.Nodup := by
  by_cases known : key ∈ m.keys
  · rwa [keys_insert_of_mem known]
  · have apart : List.Disjoint m.keys [key] := by simpa using known
    rw [insert_new known, keys_append]
    exact List.nodup_append'.mpr ⟨distinct, List.nodup_singleton _, apart⟩

theorem mem_insert {e : String × Property} (member : e ∈ m.insert key value) :
    e = (key, value) ∨ e ∈ m := by
  induction m with
  | nil => exact .inl (List.mem_singleton.mp member)
  | cons f rest ih =>
    rw [insert] at member
    split at member
    · rcases List.mem_cons.mp member with rfl | old
      · exact .inl rfl
      · exact .inr (List.mem_cons_of_mem _ old)
    · rcases List.mem_cons.mp member with rfl | later
      · exact .inr List.mem_cons_self
      · exact (ih later).imp_right (List.mem_cons_of_mem _)

end PropertyMap

namespace Property

/-- Whether something holds of every map inside a tree, the whole included. -/
def EachMap (holds : PropertyMap → Prop) (p : Property) : Prop :=
  ∀ q ∈ p.parts, ∀ m, q = .map m → holds m

section EachMap

variable {holds : PropertyMap → Prop}

theorem eachMap_of_single {p : Property} (single : p.parts = [p]) (leaf : ∀ m, p ≠ .map m) :
    p.EachMap holds := by
  intro q part m same
  rw [single] at part
  exact absurd (List.mem_singleton.mp part ▸ same) (leaf m)

theorem eachMap_list {items : List Property} :
    (Property.list items).EachMap holds ↔ ∀ p ∈ items, p.EachMap holds := by
  rw [EachMap, forall_parts_list]
  exact and_iff_right fun m same => nomatch same

theorem eachMap_map {m : PropertyMap} :
    (Property.map m).EachMap holds ↔ holds m ∧ ∀ e ∈ m, e.2.EachMap holds := by
  rw [EachMap, forall_parts_map]
  refine and_congr_left fun _ => ⟨fun all => all m rfl, fun whole n same => ?_⟩
  cases same
  exact whole

end EachMap

/-- Whether no map of a tree has a name twice. -/
def DistinctNames (p : Property) : Prop :=
  p.EachMap fun m => m.keys.Nodup

theorem over_map (lower upper : PropertyMap) :
    Property.over (some (.map lower)) (.map upper) = .map (lower.merge upper) := by
  rw [Property.over]

/-- Only maps are merged: what is no map replaces whatever is below it. -/
theorem over_of_not_map {p : Property} (leaf : ∀ m, p ≠ .map m) (below : Option Property) :
    Property.over below p = p := by
  rw [Property.over]
  exact leaf

theorem over_of_not_map_below {below : Option Property} (leaf : ∀ m, below ≠ some (.map m))
    (p : Property) : Property.over below p = p := by
  by_cases isMap : ∃ m, p = .map m
  · obtain ⟨m, rfl⟩ := isMap
    rw [Property.over]
    exact leaf
  · exact over_of_not_map (not_exists.mp isMap) below

theorem over_none (p : Property) : Property.over none p = p :=
  over_of_not_map_below (by simp) p

section Layers

variable {holds : Property → Prop} (maps : ∀ m : PropertyMap, holds (.map m) ↔ m.keys.Nodup)

include maps

theorem forall_parts_insert {m : PropertyMap} {key : String} {p : Property}
    (sound : ∀ q ∈ (Property.map m).parts, holds q) (value : ∀ q ∈ p.parts, holds q) :
    ∀ q ∈ (Property.map (m.insert key p)).parts, holds q := by
  obtain ⟨whole, values⟩ := forall_parts_map.mp sound
  have distinct : (m.insert key p).keys.Nodup :=
    PropertyMap.nodup_keys_insert ((maps m).mp whole)
  refine forall_parts_map.mpr ⟨(maps _).mpr distinct, fun e member => ?_⟩
  rcases PropertyMap.mem_insert member with rfl | old
  · exact value
  · exact values e old

private theorem forall_parts_merge_each {overlay base : PropertyMap}
    (each : ∀ e ∈ overlay, ∀ below : Option Property,
      (∀ p, below = some p → ∀ q ∈ p.parts, holds q) →
        ∀ q ∈ (Property.over below e.2).parts, holds q)
    (sound : ∀ q ∈ (Property.map base).parts, holds q) :
    ∀ q ∈ (Property.map (base.merge overlay)).parts, holds q := by
  induction overlay generalizing base with
  | nil => exact sound
  | cons e rest ih =>
    have below : ∀ p, base.get? e.1 = some p → ∀ q ∈ p.parts, holds q := fun p found =>
      (forall_parts_map.mp sound).2 _ (PropertyMap.mem_of_get? found)
    have laid := each e List.mem_cons_self _ below
    rw [PropertyMap.merge]
    exact ih (fun f member => each f (List.mem_cons_of_mem _ member))
      (forall_parts_insert maps sound laid)

/-- What holds of all parts of two layers, and of maps for their names alone, holds of all parts of
the one laid over the other. -/
theorem forall_parts_over {above : Property} (sound : ∀ q ∈ above.parts, holds q)
    {below : Option Property} (under : ∀ p, below = some p → ∀ q ∈ p.parts, holds q) :
    ∀ q ∈ (Property.over below above).parts, holds q := by
  induction above using inward generalizing below with
  | map upper ih =>
    have values := (forall_parts_map.mp sound).2
    by_cases map : ∃ lower, below = some (.map lower)
    · obtain ⟨lower, rfl⟩ := map
      rw [over_map]
      refine forall_parts_merge_each maps (fun e member _ others => ?_) (under _ rfl)
      exact ih e member (values e member) others
    · rwa [over_of_not_map_below (not_exists.mp map)]
  | _ => rwa [over_of_not_map (by simp)]

theorem forall_parts_merge {lower upper : PropertyMap}
    (below : ∀ q ∈ (Property.map lower).parts, holds q)
    (above : ∀ q ∈ (Property.map upper).parts, holds q) :
    ∀ q ∈ (Property.map (lower.merge upper)).parts, holds q := by
  have under : ∀ p, some (Property.map lower) = some p → ∀ q ∈ p.parts, holds q := by
    intro p same
    cases same
    exact below
  have laid := forall_parts_over maps above under
  rwa [over_map] at laid

end Layers

theorem DistinctNames.merge {lower upper : PropertyMap} (below : (Property.map lower).DistinctNames)
    (above : (Property.map upper).DistinctNames) :
    (Property.map (lower.merge upper)).DistinctNames := by
  refine forall_parts_merge (fun m => ?_) below above
  refine ⟨fun all => all m rfl, fun distinct n same => ?_⟩
  cases same
  exact distinct

end Property

end Deployment
