import Deployment.Proofs.PropertyMaps
import Deployment.Proofs.WellFormed

namespace Deployment

open Outcome
open Yaml (Value Entries)

namespace Property

/-- A tree all of whose parts are in canonical form. -/
def Normal (p : Property) : Prop :=
  ∀ q ∈ p.parts, q.Canonical

theorem normal_of_single {p : Property} (single : p.parts = [p]) (canonical : p.Canonical) :
    p.Normal := by
  intro q part
  rw [single] at part
  exact List.mem_singleton.mp part ▸ canonical

theorem normal_list {items : List Property} :
    (Property.list items).Normal ↔ ∀ p ∈ items, p.Normal := by
  rw [Normal, forall_parts_list]
  exact and_iff_right trivial

theorem normal_map {m : PropertyMap} :
    (Property.map m).Normal ↔ m.keys.Nodup ∧ ∀ e ∈ m, e.2.Normal := by
  rw [Normal, forall_parts_map]
  rfl

theorem normal_ofValue {l : Location} {v : Value} {p : Property}
    (success : ofValue l v = .ok p) : p.Normal := by
  intro q part
  obtain ⟨w, _, _, made⟩ := related_left (parts_ofValue success) q part
  exact canonical_ofValue made

theorem Normal.insert {m : PropertyMap} {key : String} {p : Property}
    (sound : (Property.map m).Normal) (value : p.Normal) :
    (Property.map (m.insert key p)).Normal :=
  forall_parts_insert (fun _ => Iff.rfl) sound value

theorem Normal.merge {lower upper : PropertyMap} (below : (Property.map lower).Normal)
    (above : (Property.map upper).Normal) : (Property.map (lower.merge upper)).Normal :=
  forall_parts_merge (fun _ => Iff.rfl) below above

theorem itemsToYaml_eq (items : List Property) : itemsToYaml items = items.map toYaml := by
  induction items with
  | nil => rfl
  | cons p rest ih => rw [itemsToYaml, ih, List.map_cons]

theorem entriesToYaml_eq (m : PropertyMap) :
    entriesToYaml m = m.map fun e => (.string e.1, e.2.toYaml) := by
  induction m with
  | nil => rfl
  | cons e rest ih => rw [entriesToYaml, ih, List.map_cons]

/-- A tree in normal form is built from the value that it stands for, wherever this is. -/
theorem ofValue_toYaml {p : Property} (normal : p.Normal) (l : Location) :
    ofValue l p.toYaml = .ok p := by
  induction p using inward generalizing l with
  | null | bool b | float f | string s => rfl
  | int i =>
    have below : i.toInt < 0x8000000000000000 := i.toInt_lt
    simp [toYaml, ofValue, ofNumber, Yaml.Whole.ofInt64, below]
  | uint n =>
    have wide : Int64.maxValue.toInt < n.toNat := normal _ (mem_parts_self _)
    have greatest : Int64.maxValue.toInt = 0x7fffffffffffffff := by decide
    have above : ¬ (n.toNat : Int) < 0x8000000000000000 := by omega
    simp [toYaml, ofValue, ofNumber, Yaml.Whole.ofUInt64, above]
  | list items ih =>
    have each : List.Forall₂ MadeFrom (itemsToYaml items) items := by
      rw [itemsToYaml_eq, List.forall₂_map_left_iff]
      exact List.forall₂_same.mpr fun p member =>
        ⟨l, ih p member (normal_list.mp normal p member) l⟩
    exact (madeFrom_sequence each).anywhere l
  | map m ih =>
    obtain ⟨distinct, values⟩ := normal_map.mp normal
    have each : List.Forall₂ EntryMadeFrom (entriesToYaml m) m := by
      rw [entriesToYaml_eq, List.forall₂_map_left_iff]
      exact List.forall₂_same.mpr fun e member => ⟨rfl, l, ih e member (values e member) l⟩
    exact (madeFrom_mapping each distinct).anywhere l

theorem toYaml_eq_null_iff {p : Property} : p.toYaml = .null ↔ p = .null := by
  cases p <;> simp [toYaml]

/-- The trees that are built anew from what they stand for are those in normal form, but for a
null, which on its own stands for no properties. -/
theorem build_toYaml_iff {p : Property} : build p.toYaml = .ok p ↔ p ≠ .null ∧ p.Normal := by
  constructor
  · intro rebuilt
    have present : p ≠ .null := by
      rintro rfl
      cases rebuilt
    rw [build_eq_ofValue (mt toYaml_eq_null_iff.mp present)] at rebuilt
    exact ⟨present, normal_ofValue rebuilt⟩
  · rintro ⟨present, normal⟩
    rw [build_eq_ofValue (mt toYaml_eq_null_iff.mp present)]
    exact ofValue_toYaml normal []

end Property

end Deployment
