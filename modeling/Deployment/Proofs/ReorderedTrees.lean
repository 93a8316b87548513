import Deployment.Proofs.LayerLaws
import Deployment.Proofs.PropertyTree
import Deployment.Proofs.Reordering
import Mathlib.Data.List.Perm.Basic

namespace Deployment

mutual
/-- Whether a tree is another one with the entries of its maps in another order, at any depth. -/
inductive Property.Reordered : Property → Property → Prop where
  | same (p : Property) : Property.Reordered p p
  | list {ps qs : List Property} (items : List.Forall₂ Property.Reordered ps qs) :
    Property.Reordered (.list ps) (.list qs)
  | map {m l n : PropertyMap} (order : m.Perm l) (values : PropertyMap.ReorderedInside l n) :
    Property.Reordered (.map m) (.map n)

/-- Maps with the same names in the same order whose properties are reordered. -/
inductive PropertyMap.ReorderedInside : PropertyMap → PropertyMap → Prop where
  | nil : PropertyMap.ReorderedInside [] []
  | cons {key : String} {p q : Property} {m n : PropertyMap} (value : Property.Reordered p q)
    (others : PropertyMap.ReorderedInside m n) :
    PropertyMap.ReorderedInside ((key, p) :: m) ((key, q) :: n)
end

/-- Whether a map is another one with its entries, and those of the maps in it, in another order. -/
def PropertyMap.Reordered (m n : PropertyMap) : Prop :=
  (Property.map m).Reordered (.map n)

namespace PropertyMap

variable {m n l : PropertyMap}

theorem ReorderedInside.refl (m : PropertyMap) : m.ReorderedInside m := by
  induction m with
  | nil => exact .nil
  | cons e rest ih => exact .cons (.same e.2) ih

theorem ReorderedInside.keys_eq (inside : m.ReorderedInside n) : m.keys = n.keys := by
  induction m generalizing n with
  | nil =>
    cases inside
    rfl
  | cons e rest ih =>
    cases inside with
    | cons value others => exact congrArg (_ :: ·) (ih others)

theorem ReorderedInside.get? (inside : m.ReorderedInside n) (key : String) :
    Option.Rel Property.Reordered (m.get? key) (n.get? key) := by
  induction m generalizing n with
  | nil =>
    cases inside
    exact .none
  | cons e rest ih =>
    cases inside with
    | @cons name p q _ _ value others =>
      rw [get?_cons, get?_cons]
      by_cases same : name = key
      · rw [if_pos same, if_pos same]
        exact .some value
      · rw [if_neg same, if_neg same]
        exact ih others

theorem get?_perm (distinct : m.keys.Nodup) (order : m.Perm n) (key : String) :
    m.get? key = n.get? key := by
  have others : n.keys.Nodup := (order.map _).nodup distinct
  refine Option.ext fun p => ?_
  rw [get?_eq_some_iff distinct, get?_eq_some_iff others, order.mem_iff]

theorem Reordered.exists_inside (reordered : m.Reordered n) :
    ∃ l, m.Perm l ∧ ReorderedInside l n := by
  cases reordered with
  | same => exact ⟨m, .refl m, .refl m⟩
  | map order values => exact ⟨_, order, values⟩

theorem Reordered.keys_perm (reordered : m.Reordered n) : m.keys.Perm n.keys := by
  obtain ⟨l, order, inside⟩ := reordered.exists_inside
  rw [← inside.keys_eq]
  exact order.map _

theorem Reordered.get? (reordered : m.Reordered n) (distinct : m.keys.Nodup) (key : String) :
    Option.Rel Property.Reordered (m.get? key) (n.get? key) := by
  obtain ⟨l, order, inside⟩ := reordered.exists_inside
  rw [get?_perm distinct order]
  exact inside.get? key

theorem map_get? (distinct : m.keys.Nodup) :
    m.keys.map (fun key => (key, (m.get? key).getD .null)) = m := by
  rw [keys, List.map_map]
  refine (List.map_congr_left fun e member => ?_).trans (List.map_id m)
  have found : m.get? e.1 = some e.2 := (get?_eq_some_iff distinct).mpr member
  simp [found]

theorem reordered_of_get? (distinct : m.keys.Nodup) (names : m.keys.Perm n.keys)
    (each : ∀ key, Option.Rel Property.Reordered (m.get? key) (n.get? key)) : m.Reordered n := by
  let place (key : String) : String × Property := (key, (m.get? key).getD .null)
  have order : m.Perm (n.keys.map place) := by
    have listed := names.map place
    rwa [map_get? distinct] at listed
  have others : n.keys.Nodup := names.nodup distinct
  have inside (rest : PropertyMap) (within : ∀ e ∈ rest, e ∈ n) :
      ReorderedInside (rest.keys.map place) rest := by
    induction rest with
    | nil => exact .nil
    | cons e rest ih =>
      refine .cons ?_ (ih fun f member => within f (List.mem_cons_of_mem _ member))
      have found := (get?_eq_some_iff others).mpr (within e List.mem_cons_self)
      have pair := each e.1
      rw [found] at pair
      cases here : m.get? e.1 with
      | none =>
        rw [here] at pair
        cases pair
      | some p =>
        rw [here] at pair
        cases pair with
        | some value => exact value
  exact .map order (inside n fun _ member => member)

end PropertyMap

/-- Maps are reordered after others are laid over them when all of them are, and what comes of each
property is. -/
theorem PropertyMap.Reordered.merge_of_each {lower lower' upper upper' : PropertyMap}
    (beneath : lower.Reordered lower') (above : upper.Reordered upper')
    (lowerNames : lower.keys.Nodup) (names : upper.keys.Nodup)
    (each : ∀ key q q', upper.get? key = some q → q.Reordered q' →
      (Property.over (lower.get? key) q).Reordered (Property.over (lower'.get? key) q')) :
    (lower.merge upper).Reordered (lower'.merge upper') := by
  have upperNames := above.keys_perm.nodup names
  refine reordered_of_get? (nodup_keys_merge lowerNames names) ?_ fun key => ?_
  · have new : upper.keys.filter (· ∉ lower.keys) = upper.keys.filter (· ∉ lower'.keys) :=
      List.filter_congr fun _ _ => decide_eq_decide.mpr (not_congr beneath.keys_perm.mem_iff)
    rw [keys_merge _ names, keys_merge _ upperNames, new]
    exact beneath.keys_perm.append (above.keys_perm.filter _)
  · have below := beneath.get? lowerNames key
    have pair := above.get? names key
    rw [get?_merge _ names, get?_merge _ upperNames]
    generalize found : upper.get? key = q at pair
    generalize upper'.get? key = q' at pair
    cases pair with
    | none => exact below
    | some inside => exact .some (each key _ _ found inside)

theorem rel_bind {α β γ δ : Type} {r : α → β → Prop} {s : γ → δ → Prop} {x : Option α}
    {y : Option β} {f : α → Option γ} {g : β → Option δ} (related : Option.Rel r x y)
    (next : ∀ a b, x = some a → r a b → Option.Rel s (f a) (g b)) :
    Option.Rel s (x.bind f) (y.bind g) := by
  cases related with
  | none => exact .none
  | some pair => exact next _ _ rfl pair

namespace Property

theorem Reordered.exists_map {m : PropertyMap} {q : Property}
    (reordered : (Property.map m).Reordered q) : ∃ n, q = .map n ∧ m.Reordered n := by
  cases reordered with
  | same => exact ⟨m, rfl, .same _⟩
  | map order values => exact ⟨_, rfl, .map order values⟩

theorem Reordered.not_map {p q : Property} (reordered : p.Reordered q) (leaf : ∀ m, p ≠ .map m) :
    ∀ n, q ≠ .map n := by
  cases reordered with
  | same => exact leaf
  | list items => simp
  | map order values => exact absurd rfl (leaf _)

/-- Along a path reordered trees lead to reordered trees. -/
theorem Reordered.follow {p q : Property} (reordered : p.Reordered q) (distinct : p.DistinctNames)
    (path : List String) : Option.Rel Reordered (p.follow path) (q.follow path) := by
  induction path generalizing p q with
  | nil =>
    rw [follow_nil, follow_nil]
    exact .some reordered
  | cons key rest ih =>
    by_cases isMap : ∃ m, p = .map m
    · obtain ⟨m, rfl⟩ := isMap
      obtain ⟨n, rfl, maps⟩ := reordered.exists_map
      obtain ⟨names, values⟩ := eachMap_map.mp distinct
      rw [follow_map, follow_map]
      refine rel_bind (maps.get? names key) fun r s found pair => ?_
      exact ih pair (values _ (PropertyMap.mem_of_get? found))
    · have leaf := not_exists.mp isMap
      rw [follow_of_not_map leaf, follow_of_not_map (reordered.not_map leaf)]
      exact .none

theorem Reordered.over {above above' : Property} (reordered : above.Reordered above')
    (distinct : above.DistinctNames) {below below' : Option Property}
    (beneath : Option.Rel Reordered below below') (sound : ∀ p ∈ below, p.DistinctNames) :
    (Property.over below above).Reordered (Property.over below' above') := by
  induction above using inward generalizing above' below below' with
  | map upper ih =>
    obtain ⟨upper', rfl, maps⟩ := reordered.exists_map
    obtain ⟨names, values⟩ := eachMap_map.mp distinct
    cases beneath with
    | none => rwa [over_none, over_none]
    | @some below below' pair =>
      by_cases isMap : ∃ lower, below = .map lower
      · obtain ⟨lower, rfl⟩ := isMap
        obtain ⟨lower', rfl, lowerMaps⟩ := pair.exists_map
        obtain ⟨lowerNames, lowerValues⟩ := eachMap_map.mp (sound _ rfl)
        rw [over_map, over_map]
        refine lowerMaps.merge_of_each maps lowerNames names fun key q q' found inside => ?_
        have member := PropertyMap.mem_of_get? found
        refine ih _ member inside (values _ member) (lowerMaps.get? lowerNames key) ?_
        exact fun p under => lowerValues _ (PropertyMap.mem_of_get? under)
      · have leaf := not_exists.mp isMap
        rw [over_of_not_map_below fun m same => leaf m (Option.some.inj same),
          over_of_not_map_below fun m same => pair.not_map leaf m (Option.some.inj same)]
        exact reordered
  | _ =>
    rw [over_of_not_map (by simp), over_of_not_map (reordered.not_map (by simp))]
    exact reordered

end Property

namespace PropertyMap

variable {m n : PropertyMap}

theorem Reordered.merge {lower lower' upper upper' : PropertyMap}
    (beneath : lower.Reordered lower') (above : upper.Reordered upper')
    (sound : (Property.map lower).DistinctNames) (distinct : (Property.map upper).DistinctNames) :
    (lower.merge upper).Reordered (lower'.merge upper') := by
  have laid := Property.Reordered.over above distinct (.some beneath) (by simpa using sound)
  rwa [Property.over_map, Property.over_map] at laid

theorem Reordered.lookup (reordered : m.Reordered n) (distinct : (Property.map m).DistinctNames)
    (path : String) : Option.Rel Property.Reordered (m.lookup path) (n.lookup path) := by
  obtain ⟨names, values⟩ := Property.eachMap_map.mp distinct
  rw [PropertyMap.lookup, PropertyMap.lookup]
  obtain ⟨head, rest⟩ := Text.splitFirst '.' path.toList
  have pair := reordered.get? names (String.ofList head)
  simp only
  generalize found : m.get? (String.ofList head) = p at pair
  generalize n.get? (String.ofList head) = q at pair
  cases pair with
  | none => exact .none
  | some value =>
    cases rest with
    | none => exact .some value
    | some rest => exact value.follow (values _ (mem_of_get? found)) _

end PropertyMap

section Building

open Yaml (Value Entries EntriesReordered)

variable {held : List String}

/-- Whether every tree that a value builds is built by it in another order, but for the order. -/
def Rebuilds (held : List String) (v : Value) : Prop :=
  ∀ w p, v.Reordered held w → Property.MadeFrom v p →
    ∃ q, Property.MadeFrom w q ∧ p.Reordered q

theorem rebuilds_items {vs ws : List Value} {ps : List Property}
    (items : List.Forall₂ (Value.Reordered held) vs ws)
    (made : List.Forall₂ Property.MadeFrom vs ps) (each : ∀ v ∈ vs, Rebuilds held v) :
    ∃ qs, List.Forall₂ Property.MadeFrom ws qs ∧ List.Forall₂ Property.Reordered ps qs := by
  induction items generalizing ps with
  | nil =>
    cases made
    exact ⟨[], .nil, .nil⟩
  | cons head tail ih =>
    cases made with
    | cons first others =>
      obtain ⟨q, own, value⟩ := each _ List.mem_cons_self _ _ head first
      obtain ⟨qs, later, values⟩ := ih others fun v member => each v (List.mem_cons_of_mem _ member)
      exact ⟨q :: qs, .cons own later, .cons value values⟩

theorem rebuilds_entries {gs fs : Entries} {m : PropertyMap} (values : EntriesReordered held gs fs)
    (made : List.Forall₂ Property.EntryMadeFrom gs m) (each : ∀ e ∈ gs, Rebuilds held e.2) :
    ∃ n, List.Forall₂ Property.EntryMadeFrom fs n ∧ m.ReorderedInside n := by
  induction gs generalizing fs m with
  | nil =>
    cases values
    cases made
    exact ⟨[], .nil, .nil⟩
  | cons e rest ih =>
    cases values with
    | cons value fixed others =>
      cases made with
      | @cons _ f _ m first later =>
        obtain ⟨q, own, inside⟩ := each _ List.mem_cons_self _ _ value first.2
        obtain ⟨n, entries, insides⟩ :=
          ih others later fun e member => each e (List.mem_cons_of_mem _ member)
        exact ⟨(f.1, q) :: n, .cons ⟨first.1, own⟩ entries, .cons inside insides⟩

/-- Where a value builds a tree, the value in another order does, but for the order. -/
theorem rebuilds (v : Value) : Rebuilds held v := by
  induction v using Value.inward with
  | null | bool b | number n | string s =>
    intro w p reordered made
    cases reordered
    exact ⟨p, made, .same p⟩
  | sequence vs ih =>
    intro w p reordered made
    obtain ⟨ws, rfl, items⟩ := reordered.exists_sequence
    obtain ⟨_, success⟩ := made
    obtain ⟨ps, built, rfl⟩ := Outcome.map_eq_ok.mp success
    obtain ⟨qs, again, values⟩ := rebuilds_items items (Property.ofItems_ok built) ih
    exact ⟨.list qs, Property.madeFrom_sequence again, .list values⟩
  | mapping es ih =>
    intro w p reordered made
    obtain ⟨gs, fs, rfl, order, values⟩ := reordered.exists_mapping
    obtain ⟨_, success⟩ := made
    obtain ⟨m, built, rfl⟩ := Outcome.map_eq_ok.mp success
    obtain ⟨related, distinct, _⟩ := Property.ofEntries_ok built
    -- The names follow the entries into their new order, and none of them comes twice there either.
    obtain ⟨l, moved, back⟩ := List.perm_comp_forall₂ order.symm related
    obtain ⟨n, again, inside⟩ :=
      rebuilds_entries values moved fun e member => ih e (order.mem_iff.mpr member)
    have names : (PropertyMap.keys n).Nodup := inside.keys_eq ▸ (back.symm.map _).nodup distinct
    exact ⟨.map n, Property.madeFrom_mapping again names, .map back.symm inside⟩
  | tagged tag v ih =>
    rintro w p reordered ⟨_, success⟩
    cases success

theorem PropertyMap.build_follows {v w : Value} (reordered : v.Reordered held w) :
    Outcome.Follows PropertyMap.Reordered (PropertyMap.build v) (PropertyMap.build w) := by
  intro m success
  cases v with
  | null =>
    rw [reordered.null_iff.mp rfl]
    exact ⟨m, success, .same _⟩
  | mapping es =>
    have made : Property.MadeFrom (.mapping es) (.map m) :=
      ⟨[], Outcome.map_eq_ok.mpr ⟨m, success, rfl⟩⟩
    obtain ⟨q, again, maps⟩ := rebuilds _ w _ reordered made
    obtain ⟨n, rfl, maps⟩ := maps.exists_map
    obtain ⟨fs, rfl⟩ := Property.mapping_of_madeFrom again
    obtain ⟨n', built, same⟩ := Outcome.map_eq_ok.mp (again.anywhere [])
    cases same
    exact ⟨n, built, maps⟩
  | _ => cases success

end Building

end Deployment
