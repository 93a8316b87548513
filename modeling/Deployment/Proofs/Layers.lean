import Deployment.Proofs.PropertyMaps
import Deployment.Property.Lookup
import Deployment.Template.Context

namespace Deployment

/-- A name has the property of the upper layer, laid over that of the lower one; without one in the
upper layer it has that of the lower. -/
theorem PropertyMap.get?_merge (base : PropertyMap) {overlay : PropertyMap}
    (distinct : overlay.keys.Nodup) (key : String) : (base.merge overlay).get? key =
      ((overlay.get? key).map (Property.over (base.get? key))).or (base.get? key) := by
  -- The base changes with each entry of the upper layer that is put into it.
  induction overlay generalizing base with
  | nil => rfl
  | cons e rest ih =>
    obtain ⟨name, p⟩ := e
    obtain ⟨first, others⟩ := List.nodup_cons.mp distinct
    have later := ih (base.insert name (Property.over (base.get? name) p)) others
    rw [merge, later, get?_insert, get?_cons]
    by_cases same : name = key
    · subst same
      have absent : get? rest name = none := get?_eq_none_iff.mpr first
      simp [absent]
    · simp [same]

namespace Property

theorem follow_nil (p : Property) : p.follow [] = some p := by
  rw [follow]

theorem follow_map (m : PropertyMap) (key : String) (rest : List String) :
    (Property.map m).follow (key :: rest) = (m.get? key).bind (·.follow rest) := by
  rw [follow]

theorem follow_of_not_map {p : Property} (leaf : ∀ m, p ≠ .map m) (key : String)
    (rest : List String) : p.follow (key :: rest) = none := by
  rw [follow]
  exact leaf

/-- Whether the way along a path ends before its last step, at a property that is no map. -/
def Blocked (p : Property) (path : List String) : Prop :=
  ∃ start key rest q, path = start ++ key :: rest ∧ p.follow start = some q ∧ ∀ m, q ≠ .map m

theorem blocked_of_not_map {p : Property} (leaf : ∀ m, p ≠ .map m) (key : String)
    (rest : List String) : p.Blocked (key :: rest) :=
  ⟨[], key, rest, p, rfl, follow_nil p, leaf⟩

theorem blocked_map_iff {m : PropertyMap} {key : String} {rest : List String} :
    (Property.map m).Blocked (key :: rest) ↔ ∃ q, m.get? key = some q ∧ q.Blocked rest := by
  constructor
  · rintro ⟨start, step, tail, p, same, found, leaf⟩
    cases start with
    | nil =>
      rw [follow_nil] at found
      exact absurd (Option.some.inj found).symm (leaf m)
    | cons first others =>
      obtain ⟨rfl, rfl⟩ := List.cons.inj same
      rw [follow_map] at found
      obtain ⟨q, here, below⟩ := Option.bind_eq_some_iff.mp found
      exact ⟨q, here, others, step, tail, p, rfl, below, leaf⟩
  · rintro ⟨q, here, start, step, tail, p, rfl, found, leaf⟩
    refine ⟨key :: start, step, tail, p, rfl, ?_, leaf⟩
    rw [follow_map, here]
    exact found

/-- What a path leads to in a property that is laid over another: the property there laid over the
other one there, nothing behind a property that is no map, and else what is below. -/
theorem follow_over {above : Property} (distinct : above.DistinctNames) (below : Option Property)
    (path : List String) :
    (∀ p, above.follow path = some p →
      (Property.over below above).follow path =
        some (Property.over (below.bind (·.follow path)) p)) ∧
    (above.follow path = none → above.Blocked path →
      (Property.over below above).follow path = none) ∧
    (above.follow path = none → ¬ above.Blocked path →
      (Property.over below above).follow path = below.bind (·.follow path)) := by
  -- Each step of the path goes down in both layers at once, as long as both have a map.
  induction path generalizing above below with
  | nil =>
    have reached : below.bind (·.follow []) = below := by
      cases below <;> simp [follow_nil]
    rw [reached, follow_nil, follow_nil]
    refine ⟨fun p same => ?_, by simp, by simp⟩
    rw [← Option.some.inj same]
  | cons key rest ih =>
    by_cases aboveMap : ∃ m, above = .map m
    · obtain ⟨upper, rfl⟩ := aboveMap
      by_cases belowMap : ∃ m, below = some (.map m)
      · obtain ⟨lower, rfl⟩ := belowMap
        obtain ⟨names, values⟩ := eachMap_map.mp distinct
        rw [over_map, follow_map, follow_map, PropertyMap.get?_merge lower names,
          blocked_map_iff, Option.bind_some, follow_map]
        cases found : PropertyMap.get? upper key with
        | none => simp
        | some q =>
          have sound := values _ (PropertyMap.mem_of_get? found)
          simpa using ih sound (PropertyMap.get? lower key)
      · have leaf := not_exists.mp belowMap
        have nothing : below.bind (·.follow (key :: rest)) = none := by
          cases below with
          | none => rfl
          | some q => exact follow_of_not_map (fun m same => leaf m (congrArg some same)) key rest
        rw [over_of_not_map_below leaf, nothing]
        refine ⟨fun p found => ?_, fun absent _ => absent, fun absent _ => absent⟩
        rw [found, over_of_not_map_below (by simp)]
    · have leaf := not_exists.mp aboveMap
      have absent := follow_of_not_map leaf key rest
      rw [over_of_not_map leaf, absent]
      have blocked := blocked_of_not_map leaf key rest
      exact ⟨by simp, fun _ _ => rfl, fun _ passable => absurd blocked passable⟩

end Property

/-- What the paths of a map lead to that shows an upper layer over a lower one. -/
structure LaidOver (lower upper result : PropertyMap) : Prop where
  /-- What the upper layer holds stays, unless there are two maps. -/
  kept : ∀ path p, (Property.map upper).follow path = some p →
    (∀ above below, p = .map above → (Property.map lower).follow path ≠ some (.map below)) →
    (Property.map result).follow path = some p
  /-- Two maps at the same path are merged. -/
  merged : ∀ path (above below : PropertyMap),
    (Property.map upper).follow path = some (.map above) →
    (Property.map lower).follow path = some (.map below) →
    (Property.map result).follow path = some (.map (below.merge above))
  /-- Behind what is no map in the upper layer there is nothing. -/
  blocked : ∀ path, (Property.map upper).follow path = none → (Property.map upper).Blocked path →
    (Property.map result).follow path = none
  /-- Everywhere else the lower layer shows. -/
  shown : ∀ path, (Property.map upper).follow path = none → ¬ (Property.map upper).Blocked path →
    (Property.map result).follow path = (Property.map lower).follow path

theorem PropertyMap.laidOver_merge (base : PropertyMap) {overlay : PropertyMap}
    (distinct : (Property.map overlay).DistinctNames) :
    LaidOver base overlay (base.merge overlay) := by
  have layers (path : List String) := Property.follow_over distinct (some (.map base)) path
  simp only [Property.over_map, Option.bind_some] at layers
  constructor
  · intro path p found single
    rw [(layers path).1 p found]
    by_cases isMap : ∃ above, p = .map above
    · obtain ⟨above, rfl⟩ := isMap
      rw [Property.over_of_not_map_below (single above · rfl)]
    · rw [Property.over_of_not_map (not_exists.mp isMap)]
  · intro path above below found beneath
    rw [(layers path).1 _ found, beneath, Property.over_map]
  · intro path
    exact (layers path).2.1
  · intro path
    exact (layers path).2.2

/-- A merged map is answered path by path from its two layers, and so are the properties that the
templates of an instance see: those of its job over the global ones. -/
theorem layers_by_path :
    (∀ base overlay : PropertyMap, (Property.map overlay).DistinctNames →
      LaidOver base overlay (base.merge overlay)) ∧
    ∀ (m : Manifest) (job : Job) (index : UInt64), (Property.map job.properties).DistinctNames →
      index < job.instances → ∃ c, EvaluationContext.forInstance m job index = .ok c ∧
        LaidOver m.properties job.properties c.properties := by
  constructor
  · intro base overlay distinct
    exact PropertyMap.laidOver_merge base distinct
  · intro m job index distinct inRange
    rw [EvaluationContext.forInstance, if_pos inRange]
    exact ⟨_, rfl, PropertyMap.laidOver_merge m.properties distinct⟩

/-- A map of the job over a scalar and a scalar over a map, below a map that both have. -/
theorem layers_by_path_clashes :
    let base : PropertyMap := [("web", .map [("port", .int 80), ("tls", .map [("on", .null)])])]
    let overlay : PropertyMap :=
      [("web", .map [("port", .map [("in", .int 443)]), ("tls", .bool true)])]
    let m : Manifest := ⟨"d", .standard, [], [], [], [], base⟩
    let job : Job := ⟨"j", 2, .service, [], [], 0, none, overlay⟩
    (Property.map overlay).DistinctNames ∧ (1 : UInt64) < job.instances ∧
      ∃ c, EvaluationContext.forInstance m job 1 = .ok c ∧
        (Property.map c.properties).follow ["web", "port", "in"] = some (.int 443) ∧
        (Property.map c.properties).follow ["web", "tls", "on"] = none ∧
        LaidOver base overlay (base.merge overlay) := by
  intro base overlay m job
  have distinct : (Property.map overlay).DistinctNames := by
    simp [overlay, Property.DistinctNames, Property.EachMap, Property.parts,
      Property.partsOfEntries, PropertyMap.keys]
  have inRange : (1 : UInt64) < job.instances := by decide
  obtain ⟨c, made, layers⟩ := layers_by_path.2 m job 1 distinct inRange
  refine ⟨distinct, inRange, c, made, layers.kept _ _ ?_ ?_, layers.blocked _ ?_ ?_,
    layers_by_path.1 base overlay distinct⟩
  · simp [job, overlay, Property.follow_map, Property.follow_nil, PropertyMap.get?]
  · simp
  · simp [job, overlay, Property.follow, PropertyMap.get?]
  · refine ⟨["web", "tls"], "on", [], .bool true, rfl, ?_, by simp⟩
    simp [job, overlay, Property.follow, PropertyMap.get?]

end Deployment
