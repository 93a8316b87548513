import Deployment.Proofs.Layers

namespace Deployment

namespace PropertyMap

variable {base overlay m n : PropertyMap}

/-- The names of the lower layer come first, in their order, and then those that are new in the
upper one, in theirs. -/
theorem keys_merge (base : PropertyMap) (distinct : overlay.keys.Nodup) :
    (base.merge overlay).keys = base.keys ++ overlay.keys.filter (· ∉ base.keys) := by
  -- The base grows by each new name of the upper layer, which then counts as known.
  induction overlay generalizing base with
  | nil => simp [merge, keys]
  | cons e rest ih =>
    obtain ⟨name, p⟩ := e
    obtain ⟨first, others⟩ := List.nodup_cons.mp distinct
    have names : keys ((name, p) :: rest) = name :: keys rest := rfl
    rw [merge, ih _ others, names]
    by_cases known : name ∈ base.keys
    · rw [keys_insert_of_mem known, List.filter_cons_of_neg (by simpa using known)]
    · have later : (keys rest).filter (· ∉ base.keys ++ [name]) =
          (keys rest).filter (· ∉ base.keys) := by
        refine List.filter_congr fun other member => ?_
        have different : other ≠ name := fun same => first (same ▸ member)
        simp [different]
      rw [insert_new known, keys_append, List.filter_cons_of_pos (by simpa using known)]
      rw [show keys [(name, Property.over (base.get? name) p)] = [name] from rfl, later,
        List.append_assoc, List.singleton_append]

theorem nodup_keys_merge (below : base.keys.Nodup) (above : overlay.keys.Nodup) :
    (base.merge overlay).keys.Nodup := by
  rw [keys_merge base above]
  refine List.nodup_append'.mpr ⟨below, above.filter _, fun name known new => ?_⟩
  exact absurd known (by simpa using (List.mem_filter.mp new).2)

theorem ext_of_get? (names : m.keys = n.keys) (distinct : m.keys.Nodup)
    (same : ∀ key, m.get? key = n.get? key) : m = n := by
  induction m generalizing n with
  | nil =>
    cases n with
    | nil => rfl
    | cons f others => cases names
  | cons e rest ih =>
    cases n with
    | nil => cases names
    | cons f others =>
      obtain ⟨named, tails⟩ : e.1 = f.1 ∧ keys rest = keys others := List.cons.inj names
      obtain ⟨first, nodup⟩ := List.nodup_cons.mp distinct
      have here : e.2 = f.2 := by
        simpa [get?_cons, named] using same e.1
      have tail : rest = others := by
        refine ih tails nodup fun key => ?_
        by_cases head : e.1 = key
        · subst head
          rw [get?_eq_none_iff.mpr first, get?_eq_none_iff.mpr (tails ▸ first)]
        · have below := same key
          rwa [get?_cons, get?_cons, if_neg head, if_neg (named ▸ head)] at below
      rw [tail, Prod.ext named here]

/-- Three layers can be grouped either way when this holds of what they have under each name. -/
theorem merge_assoc_of_each {a b c : PropertyMap} (first : a.keys.Nodup) (second : b.keys.Nodup)
    (third : c.keys.Nodup)
    (each : ∀ key q r, b.get? key = some q → c.get? key = some r →
      Property.over (some (Property.over (a.get? key) q)) r =
        Property.over (a.get? key) (Property.over (some q) r)) :
    (a.merge b).merge c = a.merge (b.merge c) := by
  have upper := nodup_keys_merge second third
  refine ext_of_get? ?_ (nodup_keys_merge (nodup_keys_merge first second) third) fun key => ?_
  · rw [keys_merge _ third, keys_merge _ second, keys_merge _ upper, keys_merge _ third,
      List.filter_append, List.filter_filter, List.append_assoc]
    congr 2
    refine List.filter_congr fun name member => ?_
    by_cases low : name ∈ a.keys <;> by_cases middle : name ∈ b.keys <;> simp [low, middle]
  · rw [get?_merge _ third, get?_merge _ second, get?_merge _ upper, get?_merge _ third]
    cases above : c.get? key with
    | none => simp
    | some r =>
      cases below : b.get? key with
      | none =>
        simp [Property.over_none]
      | some q => simpa using each key q r below above

theorem merge_eq_self
    (each : ∀ e ∈ overlay, ∃ p, base.get? e.1 = some p ∧ Property.over (some p) e.2 = p) :
    base.merge overlay = base := by
  induction overlay with
  | nil => rfl
  | cons e rest ih =>
    obtain ⟨⟨p, found, same⟩, others⟩ := List.forall_mem_cons.mp each
    rw [merge, found, same, insert_of_get? found]
    exact ih others

end PropertyMap

namespace Property

theorem DistinctNames.follow {p q : Property} (distinct : p.DistinctNames) {path : List String}
    (found : p.follow path = some q) : q.DistinctNames := by
  induction path generalizing p with
  | nil =>
    rw [follow_nil] at found
    exact Option.some.inj found ▸ distinct
  | cons key rest ih =>
    by_cases isMap : ∃ m, p = .map m
    · obtain ⟨m, rfl⟩ := isMap
      rw [follow_map] at found
      obtain ⟨r, here, below⟩ := Option.bind_eq_some_iff.mp found
      exact ih ((eachMap_map.mp distinct).2 _ (PropertyMap.mem_of_get? here)) below
    · rw [follow_of_not_map (not_exists.mp isMap)] at found
      cases found

/-- Whether a layer leaves alone that there is a map at a path: it has one there as well, or it says
nothing about the path. -/
def Spares (p : Property) (path : List String) : Prop :=
  ¬ p.Blocked path ∧ ∀ q, p.follow path = some q → ∃ m, q = .map m

theorem not_blocked_nil (p : Property) : ¬ p.Blocked [] := by
  rintro ⟨start, key, rest, q, same, _⟩
  cases start <;> cases same

theorem spares_nil (m : PropertyMap) : (Property.map m).Spares [] := by
  refine ⟨not_blocked_nil _, fun q found => ⟨m, ?_⟩⟩
  rw [follow_nil] at found
  exact (Option.some.inj found).symm

theorem spares_single {m : PropertyMap} {key : String}
    (maps : ∀ q, m.get? key = some q → ∃ n, q = .map n) : (Property.map m).Spares [key] := by
  constructor
  · rw [blocked_map_iff]
    rintro ⟨q, _, blocked⟩
    exact not_blocked_nil q blocked
  · intro q found
    rw [follow_map] at found
    obtain ⟨r, here, same⟩ := Option.bind_eq_some_iff.mp found
    rw [follow_nil] at same
    exact maps q (Option.some.inj same ▸ here)

end Property

section Order

variable {lower upper result below after : PropertyMap} {path : List String}

theorem LaidOver.keys_eq {above : PropertyMap} (laid : LaidOver lower upper result)
    (distinct : (Property.map upper).DistinctNames)
    (before : (Property.map lower).follow path = some (.map below))
    (new : (Property.map upper).follow path = some (.map above)) :
    ∃ m : PropertyMap, (Property.map result).follow path = some (.map m) ∧
      m.keys = below.keys ++ above.keys.filter (· ∉ below.keys) := by
  have names := (Property.eachMap_map.mp (distinct.follow new)).1
  exact ⟨_, laid.merged path above below new before, PropertyMap.keys_merge below names⟩

/-- A map of the lower layer that is still a map has its names in their old places. -/
theorem LaidOver.keys_prefix (laid : LaidOver lower upper result)
    (distinct : (Property.map upper).DistinctNames)
    (before : (Property.map lower).follow path = some (.map below))
    (still : (Property.map result).follow path = some (.map after)) :
    below.keys <+: after.keys := by
  cases new : (Property.map upper).follow path with
  | none =>
    by_cases blocked : (Property.map upper).Blocked path
    · rw [laid.blocked path new blocked] at still
      cases still
    · rw [laid.shown path new blocked, before] at still
      cases still
      exact List.prefix_rfl
  | some p =>
    by_cases isMap : ∃ above, p = .map above
    · obtain ⟨above, rfl⟩ := isMap
      obtain ⟨m, found, names⟩ := laid.keys_eq distinct before new
      cases found.symm.trans still
      exact ⟨_, names.symm⟩
    · have leaf := not_exists.mp isMap
      rw [laid.kept path p new fun above _ same => absurd same (leaf above)] at still
      exact absurd (Option.some.inj still) (leaf after)

theorem LaidOver.spared (laid : LaidOver lower upper result)
    (spares : (Property.map upper).Spares path)
    (before : (Property.map lower).follow path = some (.map below)) :
    ∃ m, (Property.map result).follow path = some (.map m) := by
  cases new : (Property.map upper).follow path with
  | none => exact ⟨below, (laid.shown path new spares.1).trans before⟩
  | some p =>
    obtain ⟨above, rfl⟩ := spares.2 p new
    exact ⟨_, laid.merged path above below new before⟩

end Order

namespace PropertyMap

theorem distinctNames_layers {base : PropertyMap} {layers : List PropertyMap}
    (distinct : (Property.map base).DistinctNames)
    (each : ∀ l ∈ layers, (Property.map l).DistinctNames) :
    (Property.map (layers.foldl merge base)).DistinctNames := by
  induction layers generalizing base with
  | nil => exact distinct
  | cons l rest ih =>
    obtain ⟨first, others⟩ := List.forall_mem_cons.mp each
    exact ih (distinct.merge first) others

theorem keys_prefix_layers {base below : PropertyMap} {layers : List PropertyMap}
    {path : List String} (each : ∀ l ∈ layers, (Property.map l).DistinctNames)
    (spares : ∀ l ∈ layers, (Property.map l).Spares path)
    (before : (Property.map base).follow path = some (.map below)) :
    ∃ m : PropertyMap, (Property.map (layers.foldl merge base)).follow path = some (.map m) ∧
      below.keys <+: m.keys := by
  induction layers generalizing base below with
  | nil => exact ⟨below, before, List.prefix_rfl⟩
  | cons l rest ih =>
    obtain ⟨first, others⟩ := List.forall_mem_cons.mp each
    obtain ⟨spared, sparedLater⟩ := List.forall_mem_cons.mp spares
    have laid := laidOver_merge base first
    obtain ⟨next, still⟩ := laid.spared spared before
    obtain ⟨m, found, later⟩ := ih others sparedLater still
    exact ⟨m, found, (laid.keys_prefix first before still).trans later⟩

/-- Merging keeps names distinct at every depth and in their places: a map that both layers have
shows the names of the lower one in their order and then the new ones in theirs, no name of a map
moves while it is a map, and so it is under any number of layers. -/
theorem merge_keeps_order :
    (∀ base overlay : PropertyMap, (Property.map base).DistinctNames →
      (Property.map overlay).DistinctNames →
        (Property.map (base.merge overlay)).DistinctNames ∧
        (base.merge overlay).keys = base.keys ++ overlay.keys.filter (· ∉ base.keys) ∧
        (∀ path (lower upper : PropertyMap),
          (Property.map base).follow path = some (.map lower) →
          (Property.map overlay).follow path = some (.map upper) →
            ∃ m : PropertyMap,
              (Property.map (base.merge overlay)).follow path = some (.map m) ∧
                m.keys = lower.keys ++ upper.keys.filter (· ∉ lower.keys)) ∧
        ∀ path (before after : PropertyMap),
          (Property.map base).follow path = some (.map before) →
          (Property.map (base.merge overlay)).follow path = some (.map after) →
            before.keys <+: after.keys) ∧
    ∀ (base : PropertyMap) (layers : List PropertyMap), (Property.map base).DistinctNames →
      (∀ l ∈ layers, (Property.map l).DistinctNames) →
        (Property.map (layers.foldl merge base)).DistinctNames ∧
        base.keys <+: keys (layers.foldl merge base) ∧
        ∀ path (before : PropertyMap), (Property.map base).follow path = some (.map before) →
          (∀ l ∈ layers, (Property.map l).Spares path) →
            ∃ after : PropertyMap,
              (Property.map (layers.foldl merge base)).follow path = some (.map after) ∧
                before.keys <+: after.keys := by
  constructor
  · intro base overlay lower upper
    have laid := laidOver_merge base upper
    refine ⟨lower.merge upper, keys_merge base (Property.eachMap_map.mp upper).1, ?_, ?_⟩
    · exact fun path _ _ before new => laid.keys_eq upper before new
    · exact fun path _ _ before still => laid.keys_prefix upper before still
  · intro base layers distinct each
    refine ⟨distinctNames_layers distinct each, ?_, ?_⟩
    · obtain ⟨m, found, names⟩ :=
        keys_prefix_layers each (fun l _ => Property.spares_nil l) (Property.follow_nil (.map base))
      rw [Property.follow_nil] at found
      exact Property.map.inj (Option.some.inj found) ▸ names
    · exact fun path before found spares => keys_prefix_layers each spares found

/-- Two layers over a map, of which one has a map under the same name and one a new name only. -/
theorem merge_keeps_order_nested :
    let base : PropertyMap := [("web", .map [("port", .int 80), ("host", .null)])]
    let overlay : PropertyMap := [("log", .null), ("web", .map [("tls", .null), ("port", .null)])]
    let other : PropertyMap := [("log", .map [])]
    (base.merge overlay).keys = ["web", "log"] ∧
      (∃ m : PropertyMap, (Property.map (base.merge overlay)).follow ["web"] = some (.map m) ∧
        m.keys = ["port", "host", "tls"]) ∧
      (Property.map ([overlay, other].foldl merge base)).DistinctNames ∧
      ∃ m : PropertyMap,
        (Property.map ([overlay, other].foldl merge base)).follow ["web"] = some (.map m) ∧
          ["port", "host"] <+: m.keys := by
  intro base overlay other
  have distinct : (Property.map base).DistinctNames := by
    simp [base, Property.DistinctNames, Property.EachMap, Property.parts,
      Property.partsOfEntries, keys]
  have each : ∀ l ∈ [overlay, other], (Property.map l).DistinctNames := by
    simp [overlay, other, Property.DistinctNames, Property.EachMap, Property.parts,
      Property.partsOfEntries, keys]
  have before : (Property.map base).follow ["web"] =
      some (.map [("port", .int 80), ("host", .null)]) := by
    simp [base, Property.follow_map, Property.follow_nil, get?]
  have new : (Property.map overlay).follow ["web"] =
      some (.map [("tls", .null), ("port", .null)]) := by
    simp [overlay, Property.follow_map, Property.follow_nil, get?]
  have spares : ∀ l ∈ [overlay, other], (Property.map l).Spares ["web"] := by
    intro l member
    refine Property.spares_single fun q found => ?_
    rcases List.mem_pair.mp member with rfl | rfl
    · exact ⟨_, (Option.some.inj found).symm⟩
    · cases found
  obtain ⟨_, names, nested, _⟩ := merge_keeps_order.1 base overlay distinct (each _ (by simp))
  obtain ⟨kept, _, places⟩ := merge_keeps_order.2 base [overlay, other] distinct each
  exact ⟨names, nested _ _ _ before new, kept, places _ _ before spares⟩

end PropertyMap

namespace Property

/-- Whether the layer between two others has a map, if it has anything, wherever both of them have
one. -/
def Unbroken (lower middle upper : Property) : Prop :=
  ∀ path below p above, lower.follow path = some (.map below) → middle.follow path = some p →
    upper.follow path = some (.map above) → ∃ m, p = .map m

theorem unbroken_map_iff {a b c : PropertyMap} : Unbroken (.map a) (.map b) (.map c) ↔
    ∀ key p q r, a.get? key = some p → b.get? key = some q → c.get? key = some r →
      Unbroken p q r := by
  constructor
  · intro unbroken key p q r lower middle upper path below s above
    have step := unbroken (key :: path) below s above
    rwa [follow_map, follow_map, follow_map, lower, middle, upper] at step
  · intro each path below s above first second third
    cases path with
    | nil =>
      rw [follow_nil] at second
      exact ⟨b, (Option.some.inj second).symm⟩
    | cons key rest =>
      rw [follow_map] at first second third
      obtain ⟨p, lower, first⟩ := Option.bind_eq_some_iff.mp first
      obtain ⟨q, middle, second⟩ := Option.bind_eq_some_iff.mp second
      obtain ⟨r, upper, third⟩ := Option.bind_eq_some_iff.mp third
      exact each key p q r lower middle upper rest below s above first second third

theorem over_over {below : Option Property} {q r : Property}
    (lower : ∀ p, below = some p → p.DistinctNames) (middle : q.DistinctNames)
    (upper : r.DistinctNames) (unbroken : ∀ p, below = some p → Unbroken p q r) :
    Property.over (some (Property.over below q)) r =
      Property.over below (Property.over (some q) r) := by
  -- Below three maps the same holds name by name; everywhere else at most two layers matter.
  induction r using inward generalizing below q with
  | map c ih =>
    by_cases isMap : ∃ b, q = .map b
    · obtain ⟨b, rfl⟩ := isMap
      by_cases beneath : ∃ a, below = some (.map a)
      · obtain ⟨a, rfl⟩ := beneath
        obtain ⟨first, lowers⟩ := eachMap_map.mp (lower _ rfl)
        obtain ⟨second, middles⟩ := eachMap_map.mp middle
        obtain ⟨third, uppers⟩ := eachMap_map.mp upper
        rw [over_map, over_map, over_map, over_map]
        refine congrArg map (PropertyMap.merge_assoc_of_each first second third ?_)
        intro key q r inMiddle inUpper
        have member := PropertyMap.mem_of_get? inUpper
        refine ih _ member ?_ (middles _ (PropertyMap.mem_of_get? inMiddle)) (uppers _ member) ?_
        · exact fun p inLower => lowers _ (PropertyMap.mem_of_get? inLower)
        · intro p inLower
          exact unbroken_map_iff.mp (unbroken _ rfl) key p q r inLower inMiddle inUpper
      · have leaf := not_exists.mp beneath
        rw [over_of_not_map_below leaf, over_of_not_map_below leaf]
    · have leaf := not_exists.mp isMap
      have apart : ∀ a, below ≠ some (.map a) := by
        rintro a rfl
        exact isMap (unbroken _ rfl [] a q c (follow_nil _) (follow_nil _) (follow_nil _))
      rw [over_of_not_map leaf, over_of_not_map_below (by simpa using leaf),
        over_of_not_map_below apart]
  | _ =>
    rw [over_of_not_map (by simp) (some (Property.over below q)),
      over_of_not_map (by simp) (some q), over_of_not_map (by simp) below]

end Property

/-- Three layers come to the same map in either grouping, the order of names at every depth
included, unless the layer between the others breaks up a map that both of them have. -/
theorem PropertyMap.merge_merge {a b c : PropertyMap} (lower : (Property.map a).DistinctNames)
    (middle : (Property.map b).DistinctNames) (upper : (Property.map c).DistinctNames)
    (unbroken : Property.Unbroken (.map a) (.map b) (.map c)) :
    (a.merge b).merge c = a.merge (b.merge c) := by
  have lowest : ∀ p, some (Property.map a) = some p → p.DistinctNames := by simpa using lower
  have whole := Property.over_over lowest middle upper (by simpa using unbroken)
  rw [Property.over_map, Property.over_map, Property.over_map, Property.over_map] at whole
  exact Property.map.inj whole

/-- A number that comes between two maps stands where the lowest layer has none. -/
theorem PropertyMap.merge_merge_scalar :
    let a : PropertyMap := [("web", .map [("port", .int 80)])]
    let b : PropertyMap := [("log", .int 1), ("web", .map [("host", .null)])]
    let c : PropertyMap := [("web", .map [("port", .map [])]), ("log", .map [])]
    (Property.map a).DistinctNames ∧ (Property.map b).DistinctNames ∧
      (Property.map c).DistinctNames ∧ Property.Unbroken (.map a) (.map b) (.map c) ∧
      (a.merge b).merge c = a.merge (b.merge c) := by
  intro a b c
  have lower : (Property.map a).DistinctNames := by
    simp [a, Property.DistinctNames, Property.EachMap, Property.parts, Property.partsOfEntries,
      PropertyMap.keys]
  have middle : (Property.map b).DistinctNames := by
    simp [b, Property.DistinctNames, Property.EachMap, Property.parts, Property.partsOfEntries,
      PropertyMap.keys]
  have upper : (Property.map c).DistinctNames := by
    simp [c, Property.DistinctNames, Property.EachMap, Property.parts, Property.partsOfEntries,
      PropertyMap.keys]
  have unbroken : Property.Unbroken (.map a) (.map b) (.map c) := by
    -- Only one name is in all three, and what they have under it has no name in common.
    rw [Property.unbroken_map_iff]
    intro key p q r inLower inMiddle inUpper
    by_cases web : "web" = key
    · subst web
      obtain rfl : .map [("port", .int 80)] = p := Option.some.inj inLower
      obtain rfl : .map [("host", .null)] = q := Option.some.inj inMiddle
      obtain rfl : .map [("port", .map [])] = r := Option.some.inj inUpper
      rw [Property.unbroken_map_iff]
      intro key p q r inLower inMiddle inUpper
      by_cases port : "port" = key
      · subst port
        cases inMiddle
      · simp [PropertyMap.get?, port] at inLower
    · simp [a, PropertyMap.get?, web] at inLower
  exact ⟨lower, middle, upper, unbroken, PropertyMap.merge_merge lower middle upper unbroken⟩

namespace Property

theorem over_again {p : Property} (distinct : p.DistinctNames) (below : Option Property) :
    Property.over (some (Property.over below p)) p = Property.over below p := by
  -- The lower layer differs from name to name, and what is new in the upper one has none beneath.
  induction p using inward generalizing below with
  | map upper ih =>
    obtain ⟨names, values⟩ := eachMap_map.mp distinct
    have again (e : String × Property) (member : e ∈ upper) (beneath : Option Property) :=
      ih e member (values e member) beneath
    have found (e : String × Property) (member : e ∈ upper) :
        PropertyMap.get? upper e.1 = some e.2 := (PropertyMap.get?_eq_some_iff names).mpr member
    by_cases isMap : ∃ lower, below = some (.map lower)
    · obtain ⟨lower, rfl⟩ := isMap
      rw [over_map, over_map]
      refine congrArg map (PropertyMap.merge_eq_self fun e member => ?_)
      refine ⟨Property.over (PropertyMap.get? lower e.1) e.2, ?_, again e member _⟩
      rw [PropertyMap.get?_merge lower names, found e member]
      rfl
    · rw [over_of_not_map_below (not_exists.mp isMap), over_map]
      refine congrArg map (PropertyMap.merge_eq_self fun e member => ⟨e.2, found e member, ?_⟩)
      have alone := again e member none
      rwa [over_none] at alone
  | _ => rw [over_of_not_map (by simp), over_of_not_map (by simp)]

end Property

/-- Laying the same map over another a second time changes nothing, the order of names at every
depth included. -/
theorem PropertyMap.merge_repeated (a : PropertyMap) {b : PropertyMap}
    (distinct : (Property.map b).DistinctNames) : (a.merge b).merge b = a.merge b := by
  have whole := Property.over_again distinct (some (.map a))
  rw [Property.over_map, Property.over_map] at whole
  exact Property.map.inj whole

/-- Twice a map over a number, a number over a map, a map over a map, and a float that is no number
under a new name. -/
theorem PropertyMap.merge_repeated_clashes :
    let a : PropertyMap := [("web", .map [("port", .int 80), ("host", .null)]), ("log", .map [])]
    let b : PropertyMap :=
      [("ratio", .float (0.0 / 0.0)), ("log", .int 1),
       ("web", .map [("tls", .null), ("port", .map [("in", .int 443)])])]
    (Property.map b).DistinctNames ∧ (a.merge b).merge b = a.merge b ∧
      a.merge b =
        [("web", .map [("port", .map [("in", .int 443)]), ("host", .null), ("tls", .null)]),
         ("log", .int 1), ("ratio", .float (0.0 / 0.0))] := by
  intro a b
  have distinct : (Property.map b).DistinctNames := by
    simp [b, Property.DistinctNames, Property.EachMap, Property.parts, Property.partsOfEntries,
      PropertyMap.keys]
  refine ⟨distinct, PropertyMap.merge_repeated a distinct, ?_⟩
  simp [a, b, PropertyMap.merge, PropertyMap.insert, PropertyMap.get?, Property.over]

end Deployment
