import Deployment.Proofs.Layers
import Deployment.Proofs.Texts

namespace Deployment

/-- Whether keys are those of a dotted path: at least one, none with a dot in it, which the dots
join to the path. -/
structure KeysOf (path : String) (keys : List String) : Prop where
  present : keys ≠ []
  dotless : ∀ key ∈ keys, '.' ∉ key.toList
  joined : ".".intercalate keys = path

/-- Whether keys lead from one property to another, each by an entry of that name in a map. -/
inductive Property.LeadsTo : Property → List String → Property → Prop
  | here (p : Property) : LeadsTo p [] p
  | step {m : PropertyMap} {key : String} {q r : Property} {rest : List String}
      (entry : (key, q) ∈ m) (further : LeadsTo q rest r) : LeadsTo (.map m) (key :: rest) r

section Keys

variable {path : String} {keys : List String}

theorem keysOf_iff :
    KeysOf path keys ↔ (Text.splitAt '.' path.toList).map String.ofList = keys := by
  have pieces : (Text.splitAt '.' path.toList).map String.ofList = keys ↔
      Text.splitAt '.' path.toList = keys.map String.toList := by
    constructor
    · intro same
      simp [← same]
    · intro same
      simp [same]
  rw [pieces]
  constructor
  · rintro ⟨present, dotless, rfl⟩
    rw [Text.splitAt_eq_iff (by simpa using present)]
    simpa using dotless
  · intro same
    have present : keys ≠ [] := by
      rintro rfl
      have none := Text.length_splitAt '.' path.toList
      simp [same] at none
    rw [Text.splitAt_eq_iff (by simpa using present)] at same
    refine ⟨present, by simpa using same.2, ?_⟩
    rw [← String.toList_inj, String.toList_intercalate]
    exact same.1

theorem existsUnique_keysOf (path : String) : ∃! keys, KeysOf path keys := by
  simp only [keysOf_iff]
  exact existsUnique_eq'

end Keys

namespace Property

/-- Where no map has a name twice, following keys is a matter of the entries on the way. -/
theorem follow_eq_some_iff {p q : Property} (distinct : p.DistinctNames) {keys : List String} :
    p.follow keys = some q ↔ p.LeadsTo keys q := by
  induction keys generalizing p with
  | nil =>
    rw [follow_nil]
    constructor
    · intro same
      exact Option.some.inj same ▸ .here p
    · intro leads
      cases leads
      rfl
  | cons key rest ih =>
    by_cases isMap : ∃ m, p = .map m
    · obtain ⟨m, rfl⟩ := isMap
      obtain ⟨names, values⟩ := eachMap_map.mp distinct
      rw [follow_map, Option.bind_eq_some_iff]
      constructor
      · rintro ⟨r, found, further⟩
        have entry := PropertyMap.mem_of_get? found
        exact .step entry ((ih (values _ entry)).mp further)
      · intro leads
        cases leads with
        | step entry further =>
          have found := (PropertyMap.get?_eq_some_iff names).mpr entry
          exact ⟨_, found, (ih (values _ entry)).mpr further⟩
    · rw [follow_of_not_map (not_exists.mp isMap)]
      constructor
      · intro found
        cases found
      · intro leads
        cases leads
        exact absurd ⟨_, rfl⟩ isMap

theorem lookup_eq_some_iff {t v : Property} (distinct : t.DistinctNames) {path : String} :
    t.lookup path = some v ↔ ∃ keys, KeysOf path keys ∧ t.LeadsTo keys v := by
  simp only [keysOf_iff, exists_eq_left', lookup, follow_eq_some_iff distinct]

/-- A path finds what its keys lead to and nothing else, and it has but one list of keys: so it
finds whatever is reached by keys without dots, the empty key being one of them, and never what is reached
by a key with a dot only. -/
theorem lookup_finds {t : Property} (distinct : t.DistinctNames) :
    (∀ path v, t.lookup path = some v ↔ ∃ keys, KeysOf path keys ∧ t.LeadsTo keys v) ∧
    (∀ path, ∃! keys, KeysOf path keys) ∧
    (∀ keys v, keys ≠ [] → (∀ key ∈ keys, '.' ∉ key.toList) → t.LeadsTo keys v →
      t.lookup (".".intercalate keys) = some v) ∧
    ∀ v, (∀ keys, keys ≠ [] → t.LeadsTo keys v → ∃ key ∈ keys, '.' ∈ key.toList) →
      ∀ path, t.lookup path ≠ some v := by
  refine ⟨fun path v => lookup_eq_some_iff distinct, existsUnique_keysOf, ?_, ?_⟩
  · intro keys v present dotless leads
    exact (lookup_eq_some_iff distinct).mpr ⟨keys, ⟨present, dotless, rfl⟩, leads⟩
  · intro v dotted path found
    obtain ⟨keys, named, leads⟩ := (lookup_eq_some_iff distinct).mp found
    obtain ⟨key, member, dot⟩ := dotted keys named.present leads
    exact named.dotless key member dot

/-- An empty key and a letter beyond the ASCII ones on a path, and a null under a key with a dot. -/
theorem lookup_finds_emptyKey :
    let t : Property := .map [("", .map [("é", .string "x")]), ("a.b", .null)]
    t.DistinctNames ∧ t.lookup ".é" = some (.string "x") ∧ (∃! keys, KeysOf ".é" keys) ∧
      t.LeadsTo ["a.b"] .null ∧ ∀ path, t.lookup path ≠ some .null := by
  intro t
  have distinct : t.DistinctNames := by
    simp [t, DistinctNames, EachMap, parts, partsOfEntries, PropertyMap.keys]
  obtain ⟨_, unique, found, hidden⟩ := lookup_finds distinct
  have leads : t.LeadsTo ["", "é"] (.string "x") := .step (.head _) (.step (.head _) (.here _))
  have null : t.LeadsTo ["a.b"] .null := .step (.tail _ (.head _)) (.here _)
  have dotted : ∀ keys, keys ≠ [] → t.LeadsTo keys .null → ∃ key ∈ keys, '.' ∈ key.toList := by
    intro keys _ leads
    simp only [t] at leads
    cases leads with
    | step entry further =>
      rcases List.mem_pair.mp entry with first | second
      · cases first
        cases further with
        | step entry further =>
          cases List.mem_singleton.mp entry
          cases further
      · cases second
        exact ⟨"a.b", List.mem_cons_self, by decide⟩
  exact ⟨distinct, found _ _ (by simp) (by decide) leads, unique _, null, hidden _ dotted⟩

end Property

/-- A map answers a path alike whether the first key is looked up in the map itself and the rest of
the path in what is found, or all keys in turn from the map as a property, wherever the path has its
dots. -/
theorem PropertyMap.lookup_eq_lookup_map (m : PropertyMap) (path : String) :
    m.lookup path = (Property.map m).lookup path := by
  rw [PropertyMap.lookup, Property.lookup, Text.splitAt_eq_splitFirst]
  obtain ⟨first, rest⟩ := Text.splitFirst '.' path.toList
  dsimp only
  cases rest with
  | none =>
    rw [List.map_singleton, Property.follow_map]
    cases m.get? (String.ofList first) with
    | none => rfl
    | some value => exact (Property.follow_nil value).symm
  | some rest =>
    rw [List.map_cons, Property.follow_map]
    cases m.get? (String.ofList first) with
    | none => rfl
    | some value =>
      rw [Option.bind_some]
      dsimp only
      rw [Property.lookup, String.toList_ofList]

end Deployment
