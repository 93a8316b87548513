import Deployment.Manifest.Tree
import Deployment.Proofs.MergeMeaning
import Deployment.Proofs.NormalForm
import Deployment.Proofs.PropertyMaps

namespace Deployment

open Yaml

namespace Property

theorem parts_toYaml (p : Property) : p.toYaml.parts = p.parts.map toYaml := by
  induction p using inward with
  | list items ih =>
    rw [toYaml, Value.parts, Value.partsOfItems_eq, itemsToYaml_eq, List.flatMap_map, parts,
      partsOfItems_eq, List.map_cons, List.map_flatMap, toYaml, itemsToYaml_eq]
    exact congrArg _ (List.flatMap_congr ih)
  | map m ih =>
    rw [toYaml, Value.parts, Value.partsOfEntries_eq, entriesToYaml_eq, List.flatMap_map, parts,
      partsOfEntries_eq, List.map_cons, List.map_flatMap, toYaml, entriesToYaml_eq]
    exact congrArg _ (List.flatMap_congr ih)
  | _ => rfl

/-- Whether no map of a tree has a name that would be a merge key in a document. -/
def MergeFree (p : Property) : Prop :=
  p.EachMap fun m => "<<" ∉ m.keys

theorem mergeFree_list {items : List Property} :
    (Property.list items).MergeFree ↔ ∀ p ∈ items, p.MergeFree :=
  eachMap_list

theorem mergeFree_map {m : PropertyMap} :
    (Property.map m).MergeFree ↔ "<<" ∉ m.keys ∧ ∀ e ∈ m, e.2.MergeFree :=
  eachMap_map

@[simp] theorem mergeFree_string (s : String) : (Property.string s).MergeFree :=
  eachMap_of_single rfl (by simp)

@[simp] theorem mergeFree_uint (n : UInt64) : (Property.uint n).MergeFree :=
  eachMap_of_single rfl (by simp)

@[simp] theorem mergeFree_ofText? (o : Option String) : (ofText? o).MergeFree := by
  cases o with
  | none => exact eachMap_of_single rfl (by simp [ofText?])
  | some s => exact mergeFree_string s

theorem mergeFree_list_map {α : Type} {write : α → Property} {xs : List α}
    (all : ∀ x ∈ xs, (write x).MergeFree) : (Property.list (xs.map write)).MergeFree :=
  mergeFree_list.mpr (List.forall_mem_map.mpr all)

@[simp] theorem mergeFree_ofTexts (texts : List String) : (ofTexts texts).MergeFree :=
  mergeFree_list_map fun s _ => mergeFree_string s

theorem resolves_toYaml {p : Property} (free : p.MergeFree) :
    MergeKey.resolve p.toYaml = .ok p.toYaml := by
  refine MergeKey.resolves_self fun es part => ?_
  rw [parts_toYaml] at part
  obtain ⟨q, within, stands⟩ := List.mem_map.mp part
  cases q with
  | map m =>
    rw [toYaml] at stands
    cases stands
    refine Bool.eq_false_iff.mpr fun held => free _ within m rfl ?_
    obtain ⟨v, member⟩ := MergeKey.hasMergeKey_iff.mp held
    rw [entriesToYaml_eq] at member
    obtain ⟨e, inside, same⟩ := List.mem_map.mp member
    have named : e.1 = "<<" := Value.string.inj (Prod.mk.inj same).1
    exact named ▸ List.mem_map_of_mem inside
  | _ => cases stands

end Property

end Deployment
