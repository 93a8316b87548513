import Deployment.Proofs.NormalForm
import Deployment.Proofs.UnknownKeys
import Deployment.Manifest.Tree

namespace Deployment

open Yaml
open Yaml.Shape
open Outcome

namespace Yaml.Shape

variable {ρ : Type} {fields : List (RecordField ρ)}

/-- A record after values for its fields, taken in order. -/
def readInOrder : List (RecordField ρ) → List Value → ρ → Except Mismatch ρ
  | f :: fields, v :: vs, r => f.read v r >>= readInOrder fields vs
  | _, _, r => .ok r

/-- Entries with a value for each field, under the names of the fields. -/
def entriesInOrder (fields : List (RecordField ρ)) (vs : List Value) : Entries :=
  List.zipWith (fun f v => (.string f.name, v)) fields vs

theorem entries_inOrder {written : List (RecordField ρ)} {seen : List String} {r : ρ}
    (known : ∀ f ∈ written, fields.find? (·.name == f.name) = some f)
    (distinct : (written.map (·.name)).Nodup) (fresh : ∀ f ∈ written, f.name ∉ seen)
    (vs : List Value) :
    entries fields seen r (entriesInOrder written vs) = readInOrder written vs r := by
  -- All fields stay known while those that are still to come get fewer.
  induction written generalizing seen r vs with
  | nil => rfl
  | cons f rest ih =>
    cases vs with
    | nil => rfl
    | cons v vs =>
      obtain ⟨first, others⟩ := List.nodup_cons.mp distinct
      have unseen : seen.contains f.name = false := by simpa using fresh f List.mem_cons_self
      have key : Value.asString? (.string f.name) = some f.name := rfl
      rw [entriesInOrder, List.zipWith_cons_cons, entries_cons, enter, key]
      simp only [known f List.mem_cons_self, unseen]
      rw [readInOrder]
      cases f.read v r with
      | error m => rfl
      | ok next =>
        refine ih (fun g member => known g (List.mem_cons_of_mem _ member)) others ?_ vs
        intro g member taken
        rcases List.mem_cons.mp taken with same | earlier
        · exact first (List.mem_map.mpr ⟨g, member, same⟩)
        · exact fresh g (List.mem_cons_of_mem _ member) earlier

theorem record_inOrder (distinct : (fields.map (·.name)).Nodup) (title : String) (initial : ρ)
    (vs : List Value) : record title fields initial (.mapping (entriesInOrder fields vs)) =
      readInOrder fields vs initial := by
  have known : ∀ f ∈ fields, fields.find? (·.name == f.name) = some f := fun _ =>
    find?_field distinct
  exact entries_inOrder known distinct (by simp) vs

theorem natural_ofUInt64 (n : UInt64) : natural (.number (.whole (.ofUInt64 n))) = .ok n := by
  have present : ¬ (n.toNat : Int) < 0 := by omega
  simp [natural, Value.untagged, Whole.ofUInt64, present]

theorem list_written {α : Type} {read : Value → Except Mismatch ρ} {write : α → Value}
    {made : α → ρ} {xs : List α} (each : ∀ x ∈ xs, read (write x) = .ok (made x)) :
    withDefault [] (list read) (.sequence (xs.map write)) = .ok (xs.map made) := by
  have items : (xs.map write).mapM read = .ok (xs.map made) := by
    induction xs with
    | nil => rfl
    | cons x rest ih =>
      have head := each x List.mem_cons_self
      have tail := ih fun y member => each y (List.mem_cons_of_mem _ member)
      rw [List.map_cons, List.mapM_cons, head, tail]
      rfl
  have present : list read (.sequence (xs.map write)) = .ok (xs.map made) := items
  rw [withDefault, optional, present]
  · rfl
  · simp

end Yaml.Shape

namespace Property

theorem toYaml_list_map {α : Type} (write : α → Property) (xs : List α) :
    (Property.list (xs.map write)).toYaml = .sequence (xs.map fun x => (write x).toYaml) := by
  rw [toYaml, itemsToYaml_eq, List.map_map]
  rfl

theorem optional_ofText? (o : Option String) : optional text (ofText? o).toYaml = .ok o := by
  cases o <;> rfl

theorem list_ofTexts (texts : List String) :
    withDefault [] (Shape.list text) (ofTexts texts).toYaml = .ok texts := by
  have read : ∀ s ∈ texts, text (toYaml (.string s)) = .ok s := fun _ _ => rfl
  rw [ofTexts, toYaml_list_map, list_written read, List.map_id']

end Property

theorem PropertyMap.build_toYaml {m : PropertyMap} (normal : (Property.map m).Normal) :
    PropertyMap.build (Property.map m).toYaml = .ok m := by
  have whole := Property.ofValue_toYaml normal []
  rw [Property.toYaml, Property.ofValue] at whole
  obtain ⟨n, built, same⟩ := map_eq_ok.mp whole
  cases same
  exact built

theorem readEach_written {α β ε : Type} {read : Nat → α → Except ε β} {write : β → α} {ys : List β}
    (each : ∀ y ∈ ys, ∀ i, read i (write y) = .ok y) (i : Nat) :
    readEach read i (ys.map write) = .ok ys := by
  induction ys generalizing i with
  | nil => rfl
  | cons y rest ih =>
    have head := each y List.mem_cons_self i
    have tail := ih (fun z member => each z (List.mem_cons_of_mem _ member)) (i + 1)
    rw [List.map_cons, readEach, head, tail]
    rfl

end Deployment
